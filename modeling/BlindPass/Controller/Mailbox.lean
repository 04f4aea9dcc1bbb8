import BlindPass.Controller.Machine

/-!
# The inbox of a node delivers at least once and in order

A document waits in its node's inbox until the node's relay acknowledges it. The relay may
open any number of sessions and may claim to have applied anything; a claim counts up to the
mark of the session that makes it, which is the highest number the session was given. A new
session takes over the highest mark of its node.

The proof follows the marks. A mark is never above the last number of its node, so documents
queued later have numbers above it; and every document up to a mark was acknowledged or
returned by a poll, because a poll returns what is outstanding in order.
-/

namespace BlindPass.Controller

open Execution (Transition)
open Fleet (SignedEnvelope)

/-- What a poll returns of a row. -/
def InboxRow.document (r : InboxRow) : InboxDocument := ⟨r.seq, r.envelope⟩

/-- The rows hold the same document of one node under the same number, whether it was
delivered and acknowledged or not. -/
def InboxRow.Same (r r' : InboxRow) : Prop := r.nodeId = r'.nodeId ∧ r.document = r'.document

/-- The row has a number above all numbers of its node. -/
def InboxRow.Above (r : InboxRow) (s : Store) : Prop :=
  ∀ r₀ ∈ s.inbox, r₀.nodeId = r.nodeId → r₀.seq < r.seq

/-- The numbers of each node increase in the order in which its documents were queued. -/
def Store.InOrder (s : Store) : Prop :=
  s.inbox.Pairwise fun r r' => r.nodeId = r'.nodeId → r.seq < r'.seq

/-- A poll of the node returned the document. -/
def Transition.Returned (u : Transition Store Event Answer) (nodeId : String)
    (d : InboxDocument) : Prop :=
  (∃ sessionId ackSeq now, u.event = .pollNodeInbox nodeId sessionId ackSeq now) ∧
    d ∈ u.output.documents

variable {cfg : Config} {time : ℕ} {bytes : SignedEnvelope → ℕ} {k : Kind} {K : List Kind}
  {s s' s'' : Store} {e : Event} {run : List (Transition Store Event Answer)}

variable {r r' : InboxRow} {ackSeq : Option ℕ} {documents : List InboxDocument}
  {nodeId sessionId : String} {now : ℕ} {u : Transition Store Event Answer}

theorem InboxRow.Same.refl : r.Same r := ⟨rfl, rfl⟩

theorem InboxRow.Same.seq (h : r.Same r') : r.seq = r'.seq :=
  congrArg InboxDocument.seq h.2

theorem InboxRow.Above.lastSeq_lt (h : r.Above s) (hpos : 0 < r.seq) :
    s.lastSeq r.nodeId < r.seq := by
  rcases Store.lastSeq_cases (s := s) r.nodeId with hzero | ⟨r₀, hr₀, hnode, hlast⟩
  · omega
  · have hlt := h r₀ hr₀ hnode
    omega

/-! ### What a transaction does to the inboxes -/

/-- Rows stay, at most marked; new rows have numbers above the old ones; and only
acknowledged rows go that are not the last of their node. -/
structure Store.Forwards (s s' : Store) : Prop where
  rows : ∀ r' ∈ s'.inbox, (∃ r ∈ s.inbox, r.Same r' ∧
      (r.ackedAtMs.isSome = true → r'.ackedAtMs.isSome = true)) ∨
    (r'.ackedAtMs = none ∧ 0 < r'.seq ∧ r'.Above s)
  kept : ∀ r ∈ s.inbox, (∃ r' ∈ s'.inbox, r.Same r') ∨
    (r.ackedAtMs.isSome = true ∧ r.seq < s.lastSeq r.nodeId)
  order : s.InOrder → s'.InOrder

/-- The last number of a node never becomes smaller. -/
theorem Store.Forwards.lastSeq_le (h : s.Forwards s') (nodeId : String) :
    s.lastSeq nodeId ≤ s'.lastSeq nodeId := by
  rcases Store.lastSeq_cases (s := s) nodeId with hzero | ⟨r, hr, hnode, hlast⟩
  · omega
  -- the row with the last number stays
  rcases h.kept r hr with ⟨r', hr', hsame⟩ | ⟨-, hbelow⟩
  · have hle : r'.seq ≤ s'.lastSeq r'.nodeId := Store.le_lastSeq hr'
    rw [← hsame.seq, ← hsame.1, hnode, hlast] at hle
    exact hle
  · rw [hnode, hlast] at hbelow
    exact absurd hbelow (Nat.lt_irrefl _)

/-- Marking rows in place. -/
theorem Store.Forwards.of_map {f : InboxRow → InboxRow} (hinbox : s'.inbox = s.inbox.map f)
    (hsame : ∀ r : InboxRow, r.Same (f r))
    (hacked : ∀ r, r.ackedAtMs.isSome = true → (f r).ackedAtMs.isSome = true) : s.Forwards s' where
  rows := by
    intro r' hr'
    rw [hinbox] at hr'
    obtain ⟨r, hr, rfl⟩ := List.mem_map.mp hr'
    exact .inl ⟨r, hr, hsame r, hacked r⟩
  kept := by
    intro r hr
    rw [hinbox]
    exact .inl ⟨f r, List.mem_map_of_mem hr, hsame r⟩
  order := by
    intro horder
    rw [Store.InOrder, hinbox, List.pairwise_map]
    refine horder.imp ?_
    intro r r' hlt hnode
    rw [← (hsame r).1, ← (hsame r').1] at hnode
    rw [← (hsame r).seq, ← (hsame r').seq]
    exact hlt hnode

/-- Documents are queued, and no session is given anything. -/
def Store.Enqueues (s s' : Store) : Prop :=
  KeepsMarks s.sessions s'.sessions ∧ ∃ docs, Numbered s.inbox docs ∧ s'.inbox = s.inbox ++ docs

theorem KeepsMarks.trans {t u v : Std.TreeMap String NodeSession} (h₁ : KeepsMarks t u)
    (h₂ : KeepsMarks u v) : KeepsMarks t v := by
  intro id e'' he''
  rcases h₂ id e'' he'' with hzero | ⟨id', e', he', hnode', hmark'⟩
  · exact .inl hzero
  · rcases h₁ id' e' he' with hzero | ⟨id₀, e₀, he₀, hnode₀, hmark₀⟩
    · exact .inl (hmark'.symm.trans hzero)
    · exact .inr ⟨id₀, e₀, he₀, hnode₀.trans hnode', hmark₀.trans hmark'⟩

theorem Store.Enqueues.of_inbox (hsessions : KeepsMarks s.sessions s'.sessions)
    (hinbox : s'.inbox = s.inbox) : s.Enqueues s' :=
  ⟨hsessions, [], .nil, by rw [hinbox, List.append_nil]⟩

theorem Store.Enqueues.refl : s.Enqueues s := .of_inbox .refl rfl

theorem Store.Enqueues.trans (h₁ : s.Enqueues s') (h₂ : s'.Enqueues s'') : s.Enqueues s'' := by
  obtain ⟨hmarks₁, docs₁, hdocs₁, hinbox₁⟩ := h₁
  obtain ⟨hmarks₂, docs₂, hdocs₂, hinbox₂⟩ := h₂
  rw [hinbox₁] at hdocs₂ hinbox₂
  exact ⟨hmarks₁.trans hmarks₂, docs₁ ++ docs₂, hdocs₁.append hdocs₂,
    by rw [hinbox₂, List.append_assoc]⟩

theorem Store.Enqueues.forwards (h : s.Enqueues s') : s.Forwards s' := by
  obtain ⟨-, docs, hdocs, hinbox⟩ := h
  refine ⟨?_, ?_, ?_⟩
  · intro r' hr'
    rw [hinbox] at hr'
    rcases List.mem_append.mp hr' with hold | hnew
    · exact .inl ⟨r', hold, .refl, id⟩
    · obtain ⟨-, hacked, hpos⟩ := hdocs.fresh r' hnew
      exact .inr ⟨hacked, hpos, fun r₀ hr₀ => hdocs.later r₀ hr₀ r' hnew⟩
  · intro r hr
    rw [hinbox]
    exact .inl ⟨r, List.mem_append_left docs hr, .refl⟩
  · intro horder
    rw [Store.InOrder, hinbox, List.pairwise_append]
    exact ⟨horder, hdocs.increasing, hdocs.later⟩

/-- Every statement but the marks queues documents or leaves the inboxes alone. -/
theorem Write.enqueues (hk : k ≠ .mark) (hw : Write cfg time k s s') : s.Enqueues s' := by
  cases hw with
  | administer ha => exact .of_inbox ha.sessions ha.inbox
  | mark => exact absurd rfl hk
  | tell => exact ⟨.refl, _, .next, rfl⟩
  | sign hdocs _ | evolve _ _ _ hdocs _ _ _ _ => exact ⟨.refl, _, hdocs.toNumbered, rfl⟩
  | regroup _ | create _ _ _ | approve _ _ _ _ _ _ _ _ => exact .of_inbox .refl rfl
  | issue _ _ hissues =>
    refine ⟨?_, _, .next, hissues.inbox⟩
    rw [hissues.rest]
    exact .refl

theorem Writes.enqueues (hK : .mark ∉ K) (hw : Writes cfg time K s s') : s.Enqueues s' := by
  refine hw.relates (R := Store.Enqueues) (fun _ => .refl)
    (fun _ _ _ => .trans) ?_
  intro k hk s t hw
  exact hw.enqueues fun heq => hK (heq ▸ hk)

/-! ### Polls -/

/-- What a poll does: it acknowledges up to the claim and the session's mark, returns what is
outstanding from the start, and moves the mark to the last document it returns. -/
structure Polls (s : Store) (nodeId sessionId : String) (ackSeq : Option ℕ)
    (documents : List InboxDocument) (s' : Store) : Prop where
  inbox : ∃ f : InboxRow → InboxRow, s'.inbox = s.inbox.map f ∧ (∀ r : InboxRow, r.Same (f r)) ∧
    (∀ r, r.ackedAtMs.isSome = true → (f r).ackedAtMs.isSome = true) ∧
    ∀ r, 0 < r.seq → r.ackedAtMs = none → (f r).ackedAtMs.isSome = true → r.nodeId = nodeId ∧
      ∃ claimed, ackSeq = some claimed ∧ r.seq ≤ claimed ∧ ∃ session : NodeSession,
        s.sessions[sessionId]? = some session ∧ session.nodeId = nodeId ∧
        r.seq ≤ session.deliveredSeq
  documents_prefix : documents <+: (s'.outstanding nodeId).map InboxRow.document
  nonempty : documents = [] → s'.outstanding nodeId = []
  marks : ∀ (id : String) (e' : NodeSession), s'.sessions[id]? = some e' →
    (∃ e : NodeSession, s.sessions[id]? = some e ∧ e.nodeId = e'.nodeId ∧
      e.deliveredSeq = e'.deliveredSeq) ∨
    (e'.nodeId = nodeId ∧ ∃ d ∈ documents, d.seq = e'.deliveredSeq)

theorem Store.pollNodeInbox_polls
    (h : s.pollNodeInbox bytes nodeId sessionId ackSeq now = .ok (s', documents)) :
    Polls s nodeId sessionId ackSeq documents s' := by
  unfold Store.pollNodeInbox at h
  split at h
  · cases h
  next session hsession =>
  split at h
  · cases h
  next hnode =>
  rw [not_not] at hnode
  cases h
  generalize hseq : (ackSeq.elim 0 fun seq => min seq session.deliveredSeq) = seq
  refine ⟨?_, ?_, ?_, ?_⟩
  · -- the acknowledgement first, then the mark of delivery
    refine ⟨_, List.map_map, fun r => ?_, fun r hacked => ?_, fun r hpos hnone hacked => ?_⟩
    · simp only [Function.comp_apply]
      split <;> split <;> exact ⟨rfl, rfl⟩
    · simp only [Function.comp_apply]
      split <;> split <;> first | exact hacked | rfl
    by_cases hcond : (r.nodeId == nodeId && decide (r.seq ≤ seq) && r.delivered &&
        r.ackedAtMs.isNone) = true
    · simp only [Bool.and_eq_true, beq_iff_eq, decide_eq_true_eq] at hcond
      have hle := hcond.1.1.2
      cases ackSeq with
      | none =>
        simp only [Option.elim_none] at hseq
        omega
      | some claimed =>
        simp only [Option.elim_some] at hseq
        exact ⟨hcond.1.1.1, claimed, rfl, by omega, session, hsession, hnode, by omega⟩
    · rw [Function.comp_apply, if_neg hcond] at hacked
      split at hacked <;> exact absurd (hnone ▸ hacked) nofun
  · refine pollResponse_initial.trans ?_
    rw [List.map_take]
    exact List.take_prefix _ _
  · intro hempty
    have hrows := pollResponse_eq_nil.mp hempty
    rw [List.map_eq_nil_iff, List.take_eq_nil_iff] at hrows
    exact hrows.resolve_left (by decide)
  · intro id e' he'
    obtain ⟨e, he, rfl⟩ := Table.getElem?_updateWhere_eq_some.mp he'
    split
    · next hcond =>
      simp only [Bool.and_eq_true, beq_iff_eq, decide_eq_true_eq] at hcond
      -- the new mark is the number of one of the documents
      refine .inr ⟨hcond.1.2, ?_⟩
      obtain hzero | ⟨d, hd, hmax⟩ := Table.foldl_max_cases (f := InboxDocument.seq) (n := 0)
      · rw [hzero] at hcond
        exact absurd hcond.2 (Nat.not_lt_zero _)
      · exact ⟨d, hd, hmax.symm⟩
    · exact .inl ⟨e, he, rfl, rfl⟩

/-- A prefix in the order of the numbers holds everything up to the numbers it holds. -/
theorem mem_documents_of_le {rows : List InboxRow}
    (hrows : rows.Pairwise fun r r' => r.seq < r'.seq)
    (hinitial : documents <+: rows.map InboxRow.document) {d : InboxDocument} (hr : r ∈ rows)
    (hd : d ∈ documents) (hle : r.seq ≤ d.seq) : r.document ∈ documents := by
  obtain ⟨rest, hsplit⟩ := hinitial
  obtain ⟨first, last, rfl, rfl, -⟩ := List.map_eq_append_iff.mp hsplit.symm
  rcases List.mem_append.mp hr with hfirst | hlast
  · exact List.mem_map_of_mem hfirst
  -- what comes after the prefix has higher numbers
  obtain ⟨r₀, hr₀, rfl⟩ := List.mem_map.mp hd
  have hlt := (List.pairwise_append.mp hrows).2.2 r₀ hr₀ r hlast
  exact absurd hle (not_le.mpr hlt)

theorem Store.InOrder.outstanding (h : s.InOrder) (nodeId : String) :
    (s.outstanding nodeId).Pairwise fun r r' => r.seq < r'.seq := by
  refine List.Pairwise.imp_of_mem ?_ (h.filter _)
  intro r r' hr hr' hlt
  have hnode := (Bool.and_eq_true_iff.mp (List.mem_filter.mp hr).2).1
  have hnode' := (Bool.and_eq_true_iff.mp (List.mem_filter.mp hr').2).1
  exact hlt ((eq_of_beq hnode).trans (eq_of_beq hnode').symm)

theorem Polls.forwards (h : Polls s nodeId sessionId ackSeq documents s') : s.Forwards s' := by
  obtain ⟨f, hinbox, hsame, hacked, -⟩ := h.inbox
  exact .of_map hinbox hsame hacked

/-! ### The end of a channel, and pruning -/

theorem Store.finalizeNodeRevocation_forwards :
    s.Forwards (s.finalizeNodeRevocation nodeId now) := by
  unfold Store.finalizeNodeRevocation
  split
  · refine .of_map rfl (fun r => ?_) fun r hacked => ?_
    · split <;> exact ⟨rfl, rfl⟩
    · split <;> first | exact hacked | rfl
  · exact Store.Enqueues.refl.forwards

theorem Store.finalizeNodeRevocation_marks :
    KeepsMarks s.sessions (s.finalizeNodeRevocation nodeId now).sessions := by
  unfold Store.finalizeNodeRevocation
  split
  · exact .of_update fun _ => ⟨rfl, rfl⟩
  · exact .refl

/-- Only the node's own documents are acknowledged. -/
theorem Store.finalizeNodeRevocation_acks (hr' : r' ∈ (s.finalizeNodeRevocation nodeId now).inbox) :
    r' ∈ s.inbox ∨ r'.nodeId = nodeId := by
  unfold Store.finalizeNodeRevocation at hr'
  split at hr'
  · obtain ⟨r, hr, rfl⟩ := List.mem_map.mp hr'
    split
    · next hcond =>
      simp only [Bool.and_eq_true, beq_iff_eq] at hcond
      exact .inr hcond.1.1
    · exact .inl hr
  · exact .inl hr'

theorem Store.pruneFleetState_forwards : s.Forwards (s.pruneFleetState now) where
  rows := by
    intro r' hr'
    exact .inl ⟨r', (List.mem_filter.mp hr').1, .refl, id⟩
  kept := by
    intro r hr
    by_cases hpruned : r ∈ (s.inbox.filter (s.inboxRowPrunable now)).take pruneBatch
    · obtain ⟨-, hcond⟩ := List.mem_filter.mp (List.mem_of_mem_take hpruned)
      obtain ⟨hold, hbelow⟩ := Bool.and_eq_true_iff.mp hcond
      obtain ⟨acked, hacked, -⟩ := (Option.any_eq_true _ _).mp hold
      exact .inr ⟨by rw [hacked]; rfl, of_decide_eq_true hbelow⟩
    · refine .inl ⟨r, List.mem_filter.mpr ⟨hr, ?_⟩, .refl⟩
      rw [Bool.not_eq_true', Bool.eq_false_iff]
      exact fun hmem => hpruned (List.contains_iff_mem.mp hmem)
  order := by
    intro horder
    exact horder.filter _

theorem Store.pruneFleetState_marks : KeepsMarks s.sessions (s.pruneFleetState now).sessions :=
  fun id e he => .inr ⟨id, e, Table.getElem?_of_foldl_erase he, rfl, rfl⟩

/-! ### One transaction -/

/-- The transactions that touch rows in place. -/
theorem Event.marks (h : .mark ∈ e.kinds s) :
    (∃ nodeId sessionId ackSeq now, e = .pollNodeInbox nodeId sessionId ackSeq now) ∨
      (∃ nodeId now, e = .finalizeNodeRevocation nodeId now) ∨ ∃ now, e = .pruneFleetState now := by
  cases e with
  | pollNodeInbox nodeId sessionId ackSeq now =>
    exact .inl ⟨nodeId, sessionId, ackSeq, now, rfl⟩
  | finalizeNodeRevocation nodeId now => exact .inr (.inl ⟨nodeId, now, rfl⟩)
  | pruneFleetState now => exact .inr (.inr ⟨now, rfl⟩)
  | _ => simp [Event.kinds, eq_ite_iff] at h

/-- A poll that succeeds answers with documents, and one that fails changes nothing. -/
theorem step_polls (cfg : Config) (bytes : SignedEnvelope → ℕ) (s : Store)
    (nodeId sessionId : String) (ackSeq : Option ℕ) (now : ℕ) :
    (∃ documents s', s.step cfg bytes (.pollNodeInbox nodeId sessionId ackSeq now) =
        (s', .polled documents) ∧ Polls s nodeId sessionId ackSeq documents s') ∨
      ∃ error, s.step cfg bytes (.pollNodeInbox nodeId sessionId ackSeq now) =
        (s, .failed error) := by
  rcases hpoll : s.pollNodeInbox bytes nodeId sessionId ackSeq now with error | ⟨s', documents⟩
  · exact .inr ⟨error, by rw [Store.step, hpoll]; rfl⟩
  · exact .inl ⟨documents, s', by rw [Store.step, hpoll]; rfl, Store.pollNodeInbox_polls hpoll⟩

theorem step_answered
    (h : (s.step cfg bytes (.pollNodeInbox nodeId sessionId ackSeq now)).2 = .polled documents) :
    Polls s nodeId sessionId ackSeq documents
      (s.step cfg bytes (.pollNodeInbox nodeId sessionId ackSeq now)).1 := by
  obtain ⟨returned, s', hstep, hpolls⟩ | ⟨error, hstep⟩ :=
    step_polls cfg bytes s nodeId sessionId ackSeq now
  · rw [hstep] at h ⊢
    obtain rfl : returned = documents := Answer.polled.inj h
    exact hpolls
  · rw [hstep] at h
    cases h

theorem step_forwards (hs : Coherent s) (hadm : e.Admitted) :
    s.Forwards (s.step cfg bytes e).1 := by
  by_cases hmark : .mark ∈ e.kinds s
  · obtain ⟨nodeId, sessionId, ackSeq, now, rfl⟩ | ⟨nodeId, now, rfl⟩ | ⟨now, rfl⟩ :=
      Event.marks hmark
    · obtain ⟨documents, s', hstep, hpolls⟩ | ⟨error, hstep⟩ :=
        step_polls cfg bytes s nodeId sessionId ackSeq now
      · rw [hstep]
        exact hpolls.forwards
      · rw [hstep]
        exact Store.Enqueues.refl.forwards
    · exact Store.finalizeNodeRevocation_forwards
    · exact Store.pruneFleetState_forwards
  · exact ((step_writes _ _ hs hadm).enqueues hmark).forwards

theorem step_marks (hs : Coherent s) (hadm : e.Admitted)
    (hpoll : ∀ nodeId sessionId ackSeq now, e ≠ .pollNodeInbox nodeId sessionId ackSeq now) :
    KeepsMarks s.sessions (s.step cfg bytes e).1.sessions := by
  by_cases hmark : .mark ∈ e.kinds s
  · obtain ⟨nodeId, sessionId, ackSeq, now, rfl⟩ | ⟨nodeId, now, rfl⟩ | ⟨now, rfl⟩ :=
      Event.marks hmark
    · exact absurd rfl (hpoll nodeId sessionId ackSeq now)
    · exact Store.finalizeNodeRevocation_marks
    · exact Store.pruneFleetState_marks
  · exact ((step_writes _ _ hs hadm).enqueues hmark).1

/-! ### What the marks stand for -/

/-- Numbers start at one, no mark is above the last number of its node, and every document up
to a mark was acknowledged or returned by a poll of the run. -/
structure Store.Backed (s : Store) (run : List (Transition Store Event Answer)) : Prop where
  order : s.InOrder
  positive : ∀ r ∈ s.inbox, 0 < r.seq
  bounded : ∀ (id : String) (e : NodeSession), s.sessions[id]? = some e →
    e.deliveredSeq ≤ s.lastSeq e.nodeId
  given : ∀ r ∈ s.inbox, ∀ (id : String) (e : NodeSession), s.sessions[id]? = some e →
    e.nodeId = r.nodeId → r.seq ≤ e.deliveredSeq →
    r.ackedAtMs.isSome = true ∨ ∃ u ∈ run, Transition.Returned u r.nodeId r.document

theorem Store.Forwards.positive (h : s.Forwards s') (hpos : ∀ r ∈ s.inbox, 0 < r.seq) :
    ∀ r' ∈ s'.inbox, 0 < r'.seq := by
  intro r' hr'
  rcases h.rows r' hr' with ⟨r, hr, hsame, -⟩ | ⟨-, hnew, -⟩
  · rw [← hsame.seq]
    exact hpos r hr
  · exact hnew

/-- A mark from before stands for what it stood for. -/
theorem Store.Backed.given_of_mark (h : s.Backed run) (hforwards : s.Forwards s')
    (hr' : r' ∈ s'.inbox) {id : String} {e : NodeSession} (he : s.sessions[id]? = some e)
    (hnode : e.nodeId = r'.nodeId) (hle : r'.seq ≤ e.deliveredSeq) :
    r'.ackedAtMs.isSome = true ∨ ∃ u ∈ run, Transition.Returned u r'.nodeId r'.document := by
  rcases hforwards.rows r' hr' with ⟨r, hr, hsame, hacked⟩ | ⟨-, hpos, habove⟩
  · rcases h.given r hr id e he (hnode.trans hsame.1.symm) (hsame.seq ▸ hle) with hold | hreturned
    · exact .inl (hacked hold)
    · rw [hsame.1, hsame.2] at hreturned
      exact .inr hreturned
  · -- a new document is above every mark of its node
    have hbounded := h.bounded id e he
    have hlt := habove.lastSeq_lt hpos
    rw [hnode] at hbounded
    omega

/-- Where no mark moves, the marks stay backed. -/
theorem Store.Backed.forward (h : s.Backed run) (hforwards : s.Forwards s')
    (hmarks : KeepsMarks s.sessions s'.sessions) : s'.Backed run where
  order := hforwards.order h.order
  positive := hforwards.positive h.positive
  bounded := by
    intro id e' he'
    rcases hmarks id e' he' with hzero | ⟨id₀, e, he, hnode, hmark⟩
    · omega
    · rw [← hmark, ← hnode]
      exact (h.bounded id₀ e he).trans (hforwards.lastSeq_le _)
  given := by
    intro r' hr' id e' he' hnode' hle
    rcases hmarks id e' he' with hzero | ⟨id₀, e, he, hnode, hmark⟩
    · have hpos := hforwards.positive h.positive r' hr'
      omega
    · exact h.given_of_mark hforwards hr' he (hnode.trans hnode') (hmark ▸ hle)

theorem Store.Backed.mono (h : s.Backed run) : s.Backed (run ++ [u]) := by
  refine ⟨h.order, h.positive, h.bounded, ?_⟩
  intro r hr id e he hnode hle
  refine (h.given r hr id e he hnode hle).imp_right ?_
  rintro ⟨v, hv, hreturned⟩
  exact ⟨v, List.mem_append_left [u] hv, hreturned⟩

/-- A poll backs its new mark with the documents it returns. -/
theorem Store.Backed.poll (h : s.Backed run) (hpolls : Polls s nodeId sessionId ackSeq documents s')
    (hevent : u.event = .pollNodeInbox nodeId sessionId ackSeq now)
    (houtput : u.output = .polled documents) : s'.Backed (run ++ [u]) where
  order := hpolls.forwards.order h.order
  positive := hpolls.forwards.positive h.positive
  bounded := by
    intro id e' he'
    rcases hpolls.marks id e' he' with ⟨e, he, hnode, hmark⟩ | ⟨hnode, d, hd, hmark⟩
    · rw [← hmark, ← hnode]
      exact (h.bounded id e he).trans (hpolls.forwards.lastSeq_le _)
    obtain ⟨r, hr, rfl⟩ := List.mem_map.mp (hpolls.documents_prefix.subset hd)
    obtain ⟨hmem, hcond⟩ := List.mem_filter.mp hr
    have hrnode := eq_of_beq (Bool.and_eq_true_iff.mp hcond).1
    rw [← hmark, hnode, ← hrnode]
    exact Store.le_lastSeq hmem
  given := by
    intro r' hr' id e' he' hnode' hle
    rcases hpolls.marks id e' he' with ⟨e, he, hnode, hmark⟩ | ⟨hnode, d, hd, hmark⟩
    · refine (h.given_of_mark hpolls.forwards hr' he (hnode.trans hnode') (hmark ▸ hle)).imp_right ?_
      rintro ⟨v, hv, hreturned⟩
      exact ⟨v, List.mem_append_left [u] hv, hreturned⟩
    · by_cases hacked : r'.ackedAtMs.isSome = true
      · exact .inl hacked
      · -- the poll returns everything outstanding up to its last document
        have hout : r' ∈ s'.outstanding nodeId := by
          refine List.mem_filter.mpr ⟨hr', ?_⟩
          simpa [← hnode', hnode] using hacked
        have horder := (hpolls.forwards.order h.order).outstanding nodeId
        refine .inr ⟨u, List.mem_append_right run (List.mem_singleton_self u), ?_, ?_⟩
        · rw [← hnode', hnode]
          exact ⟨sessionId, ackSeq, now, hevent⟩
        · rw [houtput]
          exact mem_documents_of_le horder hpolls.documents_prefix hout hd (hmark.symm ▸ hle)

theorem Run.backed (h : (controller cfg bytes).Run run s) : s.Backed run := by
  induction h with
  | start hs =>
    obtain ⟨issuerEpoch, policy, operators, -, rfl⟩ := hs
    exact ⟨.nil, List.forall_mem_nil _, fun id e he => absurd he (by simp [Store.initial]),
      List.forall_mem_nil _⟩
  | @step run s e hrun hadm ih =>
    have hs := Run.coherent hrun
    by_cases hpoll : ∃ nodeId sessionId ackSeq now, e = .pollNodeInbox nodeId sessionId ackSeq now
    · obtain ⟨nodeId, sessionId, ackSeq, now, rfl⟩ := hpoll
      change Store.Backed (s.step cfg bytes _).1 _
      obtain ⟨documents, s', hstep, hpolls⟩ | ⟨error, hstep⟩ :=
        step_polls cfg bytes s nodeId sessionId ackSeq now
      · rw [hstep]
        exact ih.poll hpolls rfl (congrArg Prod.snd hstep)
      · rw [hstep]
        exact ih.mono
    · refine Store.Backed.mono (ih.forward (step_forwards hs hadm) (step_marks hs hadm ?_))
      intro nodeId sessionId ackSeq now heq
      exact hpoll ⟨nodeId, sessionId, ackSeq, now, heq⟩

/-! ### The whole run -/

/-- What the transition `t` does with the inboxes after the run `before`: a new document gets
a number above every number its node ever had; a poll returns a prefix of what is outstanding,
and not the empty one if there is any; a document is acknowledged by a poll that claims it,
after a poll that returned it, or when its node is gone; and what disappears was
acknowledged. -/
structure Delivers (before : List (Transition Store Event Answer))
    (t : Transition Store Event Answer) : Prop where
  ordered : t.after.InOrder
  fresh : ∀ r' ∈ t.after.inbox, (∃ r ∈ t.before.inbox, r.Same r') ∨
    ∀ u ∈ before ++ [t], r'.Above u.before
  answered : ∀ nodeId sessionId ackSeq now documents,
    t.event = .pollNodeInbox nodeId sessionId ackSeq now → t.output = .polled documents →
    documents <+: (t.after.outstanding nodeId).map InboxRow.document ∧
      (documents = [] → t.after.outstanding nodeId = [])
  acknowledged : ∀ r' ∈ t.after.inbox, r'.ackedAtMs.isSome = true →
    (∃ r ∈ t.before.inbox, r.Same r' ∧ r.ackedAtMs.isSome = true) ∨
    (∃ now, t.event = .finalizeNodeRevocation r'.nodeId now) ∨
    ∃ sessionId claimed now, t.event = .pollNodeInbox r'.nodeId sessionId (some claimed) now ∧
      r'.seq ≤ claimed ∧ ∃ u ∈ before, Transition.Returned u r'.nodeId r'.document
  kept : ∀ r ∈ t.before.inbox, (∃ r' ∈ t.after.inbox, r.Same r') ∨ r.ackedAtMs.isSome = true

/-- No state of a run had a number above the last one of the state it reaches. -/
theorem Run.lastSeq_le {before after : List (Transition Store Event Answer)}
    (h : (controller cfg bytes).Run (before ++ u :: after) s) (nodeId : String) :
    u.before.lastSeq nodeId ≤ s.lastSeq nodeId := by
  obtain ⟨hrun, hadm, heq⟩ := h.split
  have hfirst : u.before.lastSeq nodeId ≤ u.after.lastSeq nodeId := by
    rw [heq]
    exact (step_forwards (Run.coherent hrun) hadm).lastSeq_le nodeId
  have hrest := h.relates (R := fun s t : Store => s.lastSeq nodeId ≤ t.lastSeq nodeId)
    (fun _ => le_rfl) (fun _ _ _ => le_trans)
    fun run s e hrun hadm => (step_forwards (Run.coherent hrun) hadm).lastSeq_le nodeId
  exact hfirst.trans hrest

theorem Run.above {before : List (Transition Store Event Answer)}
    (h : (controller cfg bytes).Run before s) (hpos : 0 < r'.seq) (habove : r'.Above s) :
    ∀ u ∈ before, r'.Above u.before := by
  intro u hu r hr hnode
  obtain ⟨first, rest, rfl⟩ := List.append_of_mem hu
  have hrow : r.seq ≤ u.before.lastSeq r.nodeId := Store.le_lastSeq hr
  have hlast := Run.lastSeq_le h r.nodeId
  have hnew := habove.lastSeq_lt hpos
  rw [← hnode] at hnew
  omega

/-- A poll acknowledges what it claims, if another poll returned it before. -/
theorem Polls.acknowledged (h : Polls s nodeId sessionId ackSeq documents s')
    (hbacked : s.Backed run) (hr' : r' ∈ s'.inbox) (hacked : r'.ackedAtMs.isSome = true) :
    (∃ r ∈ s.inbox, r.Same r' ∧ r.ackedAtMs.isSome = true) ∨ (r'.nodeId = nodeId ∧
      ∃ claimed, ackSeq = some claimed ∧ r'.seq ≤ claimed ∧
        ∃ u ∈ run, Transition.Returned u r'.nodeId r'.document) := by
  obtain ⟨f, hinbox, hsame, -, hclaims⟩ := h.inbox
  rw [hinbox] at hr'
  obtain ⟨r, hr, rfl⟩ := List.mem_map.mp hr'
  cases hbefore : r.ackedAtMs with
  | some => exact .inl ⟨r, hr, hsame r, by rw [hbefore]; rfl⟩
  | none =>
    obtain ⟨hnode, claimed, hclaim, hle, session, hsession, hsnode, hmark⟩ :=
      hclaims r (hbacked.positive r hr) hbefore hacked
    have hgiven := hbacked.given r hr sessionId session hsession (hsnode.trans hnode.symm) hmark
    have hreturned := hgiven.resolve_left (by rw [hbefore]; exact nofun)
    rw [(hsame r).1, (hsame r).2] at hreturned
    rw [(hsame r).1] at hnode
    rw [(hsame r).seq] at hle
    exact .inr ⟨hnode, claimed, hclaim, hle, hreturned⟩

theorem step_acknowledged (hs : Coherent s) (hadm : e.Admitted) (hbacked : s.Backed run)
    (hr' : r' ∈ (s.step cfg bytes e).1.inbox) (hacked : r'.ackedAtMs.isSome = true) :
    (∃ r ∈ s.inbox, r.Same r' ∧ r.ackedAtMs.isSome = true) ∨
    (∃ now, e = .finalizeNodeRevocation r'.nodeId now) ∨
    ∃ sessionId claimed now, e = .pollNodeInbox r'.nodeId sessionId (some claimed) now ∧
      r'.seq ≤ claimed ∧ ∃ u ∈ run, Transition.Returned u r'.nodeId r'.document := by
  by_cases hmark : .mark ∈ e.kinds s
  · obtain ⟨nodeId, sessionId, ackSeq, now, rfl⟩ | ⟨nodeId, now, rfl⟩ | ⟨now, rfl⟩ :=
      Event.marks hmark
    · obtain ⟨documents, s', hstep, hpolls⟩ | ⟨error, hstep⟩ :=
        step_polls cfg bytes s nodeId sessionId ackSeq now
      · rw [hstep] at hr'
        refine (hpolls.acknowledged hbacked hr' hacked).imp_right fun hclaimed => .inr ?_
        obtain ⟨rfl, claimed, rfl, hle, hreturned⟩ := hclaimed
        exact ⟨sessionId, claimed, now, rfl, hle, hreturned⟩
      · rw [hstep] at hr'
        exact .inl ⟨r', hr', .refl, hacked⟩
    · rcases Store.finalizeNodeRevocation_acks hr' with hold | rfl
      · exact .inl ⟨r', hold, .refl, hacked⟩
      · exact .inr (.inl ⟨now, rfl⟩)
    · exact .inl ⟨r', (List.mem_filter.mp hr').1, .refl, hacked⟩
  · -- documents are queued unacknowledged
    have hw := step_writes cfg bytes hs hadm
    obtain ⟨-, docs, hdocs, hinbox⟩ := hw.enqueues hmark
    rw [hinbox] at hr'
    rcases List.mem_append.mp hr' with hold | hnew
    · exact .inl ⟨r', hold, .refl, hacked⟩
    · rw [(hdocs.fresh r' hnew).2.1] at hacked
      cases hacked

/-- In every run, for any claims of any number of sessions: numbers increase and are never
used again, polls return what is outstanding in order, and a document that was acknowledged,
or removed, had been returned before. -/
theorem inbox_at_least_once (h : (controller cfg bytes).Run run s) :
    ∀ before t after, run = before ++ t :: after → Delivers before t := by
  rintro before t after rfl
  obtain ⟨hrun, hadm, heq⟩ := h.split
  have hs := Run.coherent hrun
  have hbacked := Run.backed hrun
  have hforwards : t.before.Forwards t.after := by
    rw [heq]
    exact step_forwards hs hadm
  refine ⟨hforwards.order hbacked.order, ?_, ?_, ?_, ?_⟩
  · intro r' hr'
    refine (hforwards.rows r' hr').imp (fun ⟨r, hr, hsame, _⟩ => ⟨r, hr, hsame⟩) ?_
    rintro ⟨-, hpos, habove⟩ u hu
    rcases List.mem_append.mp hu with hold | hlast
    · exact Run.above hrun hpos habove u hold
    · obtain rfl := List.mem_singleton.mp hlast
      exact habove
  · intro nodeId sessionId ackSeq now documents hevent houtput
    have hafter : t.after = (t.before.step cfg bytes t.event).1 := by
      rw [heq]
      rfl
    have hanswer : (t.before.step cfg bytes t.event).2 = .polled documents := by
      rw [← houtput, heq]
      rfl
    rw [hevent] at hafter hanswer
    have hpolls := step_answered hanswer
    rw [← hafter] at hpolls
    exact ⟨hpolls.documents_prefix, hpolls.nonempty⟩
  · intro r' hr' hacked
    rw [heq] at hr'
    exact step_acknowledged hs hadm hbacked hr' hacked
  · intro r hr
    exact (hforwards.kept r hr).imp_right And.left

namespace Sample

/-- The relay claims more than it was given. -/
def claim : Event := .pollNodeInbox "node-1" "session-1" (some 100) 4000

end Sample

/-- The claim acknowledges what the first poll returned. -/
theorem inbox_at_least_once_claimed :
    let before := (Sample.play Sample.delivered).1
    let t := (controller Sample.config fun _ => 100).transition (Sample.play Sample.delivered).2
      Sample.claim
    t.after.inbox.map (fun r => (r.seq, r.ackedAtMs)) =
        [(1, some 4000), (2, some 4000), (3, some 4000)] ∧ Delivers before t := by
  refine ⟨by decide +kernel, ?_⟩
  have hrun := (Sample.run_play Sample.delivered (by decide +kernel)).step
    (e := Sample.claim) trivial
  exact inbox_at_least_once hrun _ _ [] rfl

/-- In every run, no session's mark is above the last number of its node, and a document up to the
mark that nobody acknowledged was returned by a poll. -/
theorem marks_backed (h : (controller cfg bytes).Run run s) {id : String} {e : NodeSession}
    (he : s.sessions[id]? = some e) : e.deliveredSeq ≤ s.lastSeq e.nodeId ∧
    ∀ r ∈ s.inbox, r.nodeId = e.nodeId → r.seq ≤ e.deliveredSeq → r.ackedAtMs = none →
      ∃ u ∈ run, Transition.Returned u r.nodeId r.document := by
  have hbacked := Run.backed h
  refine ⟨hbacked.bounded id e he, fun r hr hnode hle hnone => ?_⟩
  exact (hbacked.given r hr id e he hnode.symm hle).resolve_left (by simp [hnone])

theorem marks_backed_delivered : ∃ e ∈ (Sample.play Sample.delivered).2.sessions["session-1"]?,
    e.deliveredSeq = 3 ∧ 3 ≤ (Sample.play Sample.delivered).2.lastSeq e.nodeId := by
  obtain ⟨e, he, hmark⟩ : ∃ e ∈ (Sample.play Sample.delivered).2.sessions["session-1"]?,
    e.deliveredSeq = 3 := by decide +kernel
  have hle := (marks_backed (Sample.run_play Sample.delivered (by decide +kernel)) he).1
  exact ⟨e, he, hmark, hmark ▸ hle⟩

end BlindPass.Controller
