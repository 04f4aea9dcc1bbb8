import BlindPass.Controller.Lifecycle

/-!
# Closing the requests of ended operations

A broker that asked for an operation waits until the controller tells it the outcome. A
transaction that denies or cancels a pending operation should therefore queue a signed
closure for the operation's node. Four transactions do not always do so: a stale issuance
closes requests of workloads only, the staging of a key rotation and the clock fence close
none, and the expiry pass reads the requests to close at an earlier time than the
operations it ends.
-/

namespace BlindPass.Controller

open Execution (Transition)
open Fleet (SignedEnvelope)

/-- The operation ended without a grant. -/
def OperationStatus.isEnded : OperationStatus → Bool
  | .denied | .cancelled => true
  | _ => false

theorem OperationStatus.isEnded_of_isPending {status : OperationStatus}
    (h : status.isPending = true) : status.isEnded = false := by
  revert h
  cases status <;> decide

/-- The new documents of the later store close the request of every operation that ended on
a node that stayed active. -/
def Store.Closes (s s' : Store) : Prop :=
  ∃ docs, s'.inbox = s.inbox ++ docs ∧ ∀ (key : String) (o o' : Operation) (eventKey : String),
    s.operations[key]? = some o → s'.operations[key]? = some o' → o.status.isPending = true →
    o'.status.isEnded = true → o.brokerEventKey = some eventKey → s.nodeActive o.nodeId = true →
    s'.nodeActive o.nodeId = true → ∃ r ∈ docs, r.Closes o.nodeId key eventKey

/-- What a later store has to do with an earlier one: pending operations do not come back,
and only pending ones end; a revoked node stays revoked. -/
structure Store.Continues (s s' : Store) : Prop where
  operations : Table.Extends (fun _ o o' => o'.toOperationRequest = o.toOperationRequest ∧
    (o.status.isPending = false → o'.status.isPending = false ∧
      (o'.status.isEnded = true → o.status.isEnded = true))) s.operations s'.operations
  nodes : Table.Extends (fun _ n n' => n.status = .revoked → n'.status = .revoked)
    s.nodes s'.nodes

variable {cfg : Config} {time : ℕ} {bytes : SignedEnvelope → ℕ} {k : Kind} {K : List Kind}
  {s s' s'' : Store} {e : Event}

theorem Store.Continues.refl : s.Continues s :=
  ⟨.refl fun _ _ => ⟨rfl, fun h => ⟨h, id⟩⟩, .refl fun _ _ => id⟩

theorem Store.Continues.trans (h₁ : s.Continues s') (h₂ : s'.Continues s'') : s.Continues s'' where
  operations := by
    refine h₁.operations.trans (fun _ o o' o'' h h' => ⟨h'.1.trans h.1, fun hnot => ?_⟩) h₂.operations
    have hmid := h.2 hnot
    have hlast := h'.2 hmid.1
    exact ⟨hlast.1, hmid.2 ∘ hlast.2⟩
  nodes := h₁.nodes.trans (fun _ _ _ _ h h' => h' ∘ h) h₂.nodes

theorem Store.nodeActive_between {nodeId : String} (h₁ : s.Continues s') (h₂ : s'.Continues s'')
    (hfirst : s.nodeActive nodeId = true) (hlast : s''.nodeActive nodeId = true) :
    s'.nodeActive nodeId = true := by
  obtain ⟨n, hn, -⟩ := (Option.any_eq_true _ _).mp hfirst
  obtain ⟨n', hn', -⟩ := h₁.nodes nodeId n hn
  obtain ⟨n'', hn'', hrevoked⟩ := h₂.nodes nodeId n' hn'
  rw [Store.nodeActive, hn'', Option.any_some] at hlast
  rw [Store.nodeActive, hn', Option.any_some]
  cases hstatus : n'.status with
  | active => rfl
  | revoked =>
    rw [hrevoked hstatus] at hlast
    cases hlast

/-! ### One statement -/

theorem Kind.moves_pending {a b : OperationStatus} (h : k.moves a b = true)
    (ha : a.isPending = false) : b.isPending = false ∧ (b.isEnded = true → a.isEnded = true) := by
  revert a b
  cases k <;> decide

theorem Write.nodes (hw : Write cfg time k s s') :
    Table.Extends (fun _ n n' => n.status = .revoked → n'.status = .revoked) s.nodes s'.nodes := by
  cases hw with
  | administer ha => exact ha.nodes
  | issue _ _ hissues =>
    rw [hissues.rest]
    exact .refl fun _ _ => id
  | sign _ _ | tell _ | mark _ _ | regroup _ | create _ _ _ | approve _ _ _ _ _ _ _ _
  | evolve => exact .refl fun _ _ => id

theorem Write.continues (hw : Write cfg time k s s') : s.Continues s' where
  operations := by
    refine hw.extends.1.mono fun _ o o' hadvances => ⟨hadvances.request, fun hnot => ?_⟩
    rcases hadvances.status with heq | ⟨hmoves, -⟩
    · rw [heq]
      exact ⟨hnot, id⟩
    · exact Kind.moves_pending hmoves hnot
  nodes := hw.nodes

/-- Statements that end nothing close everything they have to. -/
theorem Store.Closes.of_moves {docs : List InboxRow} (hinbox : s'.inbox = s.inbox ++ docs)
    (hops : Table.Extends (fun _ => Operation.Advances k.moves) s.operations s'.operations)
    (hk : ∀ a b, k.moves a b = true → b.isEnded = false) : s.Closes s' := by
  refine ⟨docs, hinbox, ?_⟩
  intro key o o' eventKey ho ho' hpending hended
  obtain ⟨o'', ho'', hadvances⟩ := hops key o ho
  obtain rfl : o'' = o' := Option.mem_unique ho'' ho'
  exfalso
  rcases hadvances.status with heq | ⟨hmoves, -⟩
  · rw [heq, OperationStatus.isEnded_of_isPending hpending] at hended
    cases hended
  · rw [hk _ _ hmoves] at hended
    cases hended

theorem Write.closes (hsigner : cfg.signer = true) (hmark : k ≠ .mark) (habandon : k ≠ .abandon)
    (hw : Write cfg time k s s') : s.Closes s' := by
  have hops := hw.extends.1
  cases hw with
  | administer ha =>
    have hinbox : s'.inbox = s.inbox ++ [] := by rw [ha.inbox, List.append_nil]
    exact .of_moves hinbox hops (by decide)
  | sign _ _ | tell _ => exact .of_moves rfl hops (by decide)
  | mark => exact absurd rfl hmark
  | regroup _ | create _ _ _ | approve _ _ _ _ _ _ _ _ =>
    exact .of_moves (List.append_nil _).symm hops (by decide)
  | issue _ _ hissues =>
    exact .of_moves hissues.inbox hops (by decide)
  | evolve _ _ _ _ _ hclosed =>
    refine ⟨_, rfl, ?_⟩
    intro key o o' eventKey ho ho' hpending hended hkey hactive _
    have hnot : o'.status.isPending = false := by
      revert hended
      cases o'.status <;> decide
    exact hclosed habandon hsigner key o o' eventKey ho ho' hpending hnot hkey hactive

/-! ### One transaction -/

theorem Store.Closes.trans (hc₁ : s.Continues s') (hc₂ : s'.Continues s'') (h₁ : s.Closes s')
    (h₂ : s'.Closes s'') : s.Closes s'' := by
  obtain ⟨docs₁, hinbox₁, hclosed₁⟩ := h₁
  obtain ⟨docs₂, hinbox₂, hclosed₂⟩ := h₂
  refine ⟨docs₁ ++ docs₂, by rw [hinbox₂, hinbox₁, List.append_assoc], ?_⟩
  intro key o o'' eventKey ho ho'' hpending hended hkey hfirst hlast
  have hmid := Store.nodeActive_between hc₁ hc₂ hfirst hlast
  obtain ⟨o', ho', hrequest, -⟩ := hc₁.operations key o ho
  obtain ⟨p, hp, -, hends⟩ := hc₂.operations key o' ho'
  obtain rfl : p = o'' := Option.mem_unique hp ho''
  have hnode : o'.nodeId = o.nodeId := congrArg OperationRequest.nodeId hrequest
  have hkey' : o'.brokerEventKey = some eventKey :=
    (congrArg OperationRequest.brokerEventKey hrequest).trans hkey
  -- the operation ended in the first part, or it was still pending between the two
  cases hmoved : o'.status.isPending with
  | false =>
    obtain ⟨r, hr, hcloses⟩ := hclosed₁ key o o' eventKey ho ho' hpending ((hends hmoved).2 hended)
      hkey hfirst hmid
    exact ⟨r, List.mem_append_left docs₂ hr, hcloses⟩
  | true =>
    rw [← hnode] at hmid hlast
    obtain ⟨r, hr, hcloses⟩ := hclosed₂ key o' p eventKey ho' ho'' hmoved hended hkey' hmid hlast
    exact ⟨r, List.mem_append_right docs₁ hr, hnode ▸ hcloses⟩

theorem Store.Closes.refl : s.Closes s := by
  refine ⟨[], (List.append_nil _).symm, ?_⟩
  intro key o o' eventKey ho ho' hpending hended
  obtain rfl := Option.mem_unique ho ho'
  rw [OperationStatus.isEnded_of_isPending hpending] at hended
  cases hended

theorem Writes.closes (hsigner : cfg.signer = true) (hmark : .mark ∉ K) (habandon : .abandon ∉ K)
    (hw : Writes cfg time K s s') : s.Closes s' := by
  suffices hboth : s.Continues s' ∧ s.Closes s' from hboth.2
  refine hw.relates (R := fun s t => s.Continues t ∧ s.Closes t)
    (fun _ => ⟨.refl, .refl⟩) ?_ ?_
  · rintro s t u ⟨hc₁, h₁⟩ ⟨hc₂, h₂⟩
    exact ⟨hc₁.trans hc₂, h₁.trans hc₁ hc₂ h₂⟩
  · intro k hk s t hw
    exact ⟨hw.continues, hw.closes hsigner (fun heq => hmark (heq ▸ hk)) fun heq =>
      habandon (heq ▸ hk)⟩

/-- The transaction ends an operation whose broker request it does not close: it denies a
stale request of an operator, stages a key rotation or fences the clock over a pending
request, or a request becomes overdue while the expiry pass runs. -/
def Event.leavesOpen (s : Store) : Event → Bool
  | .issueOperationGrants drafts now _ => s.deniesUnclosed drafts now
  | .stageNodeKeyRotation nodeId _ _ _ _ => s.cancelsUnclosed nodeId
  | .expireFleetState clock => s.overdueBetween clock.targets clock.operations
  | .fleetFencePurge _ => s.fencesUnclosed
  | _ => false

theorem Event.abandon_notMem (h : e.leavesOpen s = false) : .abandon ∉ e.kinds s := by
  cases e with
  | issueOperationGrants drafts now =>
    have hcond : s.deniesUnclosed drafts now = false := h
    simp [Event.kinds, hcond]
  | stageNodeKeyRotation nodeId =>
    have hcond : s.cancelsUnclosed nodeId = false := h
    simp [Event.kinds, hcond, eq_ite_iff]
  | expireFleetState clock =>
    have hcond : s.overdueBetween clock.targets clock.operations = false := h
    simp [Event.kinds, hcond]
  | fleetFencePurge =>
    have hcond : s.fencesUnclosed = false := h
    simp [Event.kinds, hcond]
  | _ => simp [Event.kinds, eq_ite_iff]

/-- The transactions that acknowledge or remove documents end nothing. -/
theorem Event.movesAny_of_mark (h : .mark ∈ e.kinds s) :
    ∀ a b, Kind.movesAny (e.kinds s) a b = false := by
  cases e with
  | finalizeNodeRevocation nodeId now | pruneFleetState now
  | pollNodeInbox =>
    dsimp only [Event.kinds]
    decide
  | _ => simp [Event.kinds, eq_ite_iff] at h

/-! ### Runs -/

variable {run : List (Transition Store Event Answer)}

/-- With an issuer, in a run without steps that leave a request open: a transaction that
takes a pending operation to `denied` or `cancelled`, on a node that stays active, queues
for the node a closure that names the operation's request. -/
theorem ended_closed (hsigner : cfg.signer = true) (h : (controller cfg bytes).Run run s)
    (hcond : ∀ t ∈ run, t.event.leavesOpen t.before = false) (t : Transition Store Event Answer)
    (ht : t ∈ run) (key eventKey : String) (o o' : Operation)
    (ho : t.before.operations[key]? = some o) (ho' : t.after.operations[key]? = some o')
    (hpending : o.status.isPending = true) (hended : o'.status.isEnded = true)
    (hkey : o.brokerEventKey = some eventKey) (hbefore : t.before.nodeActive o.nodeId = true)
    (hafter : t.after.nodeActive o.nodeId = true) : ∃ docs, t.after.inbox = t.before.inbox ++ docs ∧
      ∃ r ∈ docs, r.Closes o.nodeId key eventKey := by
  obtain ⟨before, after, rfl⟩ := List.append_of_mem ht
  obtain ⟨hrun, hadm, heq⟩ := h.split
  have hw : Writes cfg t.event.time (t.event.kinds t.before) t.before t.after := by
    rw [heq]
    exact step_writes _ _ (Run.coherent hrun) hadm
  by_cases hmark : .mark ∈ t.event.kinds t.before
  · -- these transactions change no status
    obtain ⟨o'', ho'', hadvances⟩ := hw.operations Event.unchained key o ho
    obtain rfl : o'' = o' := Option.mem_unique ho'' ho'
    rcases hadvances.status with hsame | ⟨hmoves, -⟩
    · rw [hsame, OperationStatus.isEnded_of_isPending hpending] at hended
      cases hended
    · rw [Event.movesAny_of_mark hmark] at hmoves
      cases hmoves
  · obtain ⟨docs, hinbox, hcloses⟩ :=
      hw.closes hsigner hmark (Event.abandon_notMem (hcond t ht))
    exact ⟨docs, hinbox,
      hcloses key o o' eventKey ho ho' hpending hended hkey hbefore hafter⟩

instance {r : InboxRow} {nodeId operationId eventKey : String} :
    Decidable (r.Closes nodeId operationId eventKey) :=
  decidable_of_iff ((r.nodeId == nodeId && match r.envelope.body with
    | .operationClosed c => c.nodeId == nodeId && c.operationId == operationId &&
        c.requestEventKey == eventKey
    | _ => false) = true) (by
      unfold InboxRow.Closes
      cases r.envelope.body <;> simp [and_assoc])

namespace Sample

def awaitingOperation : Operation :=
  { request .pendingApproval with
    approvalId := some "approval-1"
    status := .awaitingApproval
    grantId := none
    result := none
    expiresAtMs := 62000
    version := 1 }

/-- The named approver rejects the group. -/
def reject : Event :=
  .decideOperationApproval
    ⟨"approval-1", 1, ["operation-1"], .rejected, "bob", "bob", "decision-key"⟩ ⟨3000, 3000, 3000⟩

end Sample

theorem ended_closed_rejected :
    let after := ((controller Sample.config fun _ => 100).step (Sample.play Sample.awaiting).2
      Sample.reject).1
    ∃ docs, after.inbox = (Sample.play Sample.awaiting).2.inbox ++ docs ∧
      ∃ r ∈ docs, r.Closes "node-1" "operation-1" "event-key-000001" :=
  have hrun := (Sample.run_play Sample.awaiting (by decide +kernel)).step
    (e := Sample.reject) (by decide +kernel)
  ended_closed rfl hrun (by decide +kernel) _ (List.mem_append_right _ (.head _))
    "operation-1" "event-key-000001" Sample.awaitingOperation
    (Sample.awaitingOperation.settle .denied { reason := some "approval_rejected" })
    (by decide +kernel) (by decide +kernel) rfl rfl rfl (by decide +kernel) (by decide +kernel)

/-- The staging of a key rotation cancels a request, and the node, which stays active, is not
told. -/
theorem ended_unclosed : ∃ run t, (controller Sample.config fun _ => 100).Run (run ++ [t]) t.after ∧
    t.before.operations["operation-1"]? = some Sample.awaitingOperation ∧
    t.after.operations["operation-1"]? = some (Sample.awaitingOperation.settle .cancelled
      { reason := some "node_key_rotation" }) ∧
    t.before.nodeActive "node-1" = true ∧ t.after.nodeActive "node-1" = true ∧
    ∀ r ∈ t.after.inbox, ¬ r.Closes "node-1" "operation-1" "event-key-000001" :=
  ⟨_, _, (Sample.run_play Sample.awaiting (by decide +kernel)).step
    (e := Sample.stageRotation 3000) trivial, by decide +kernel, by decide +kernel,
    by decide +kernel, by decide +kernel, by decide +kernel⟩

end BlindPass.Controller
