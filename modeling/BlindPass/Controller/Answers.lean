import BlindPass.Controller.Lifecycle
import BlindPass.Controller.Routes.NodeEvents

/-!
# Acknowledged requests and their answers

A broker keeps a request in its table of owners until the controller closes it. A request that
the controller acknowledges therefore needs an operation, whose end closes the request, or a
closure at once. Requests that the controller discards have neither: it acknowledges them, so
that they do not stall the queue, and leaves it at that.
-/

namespace BlindPass.Controller

open Execution (Machine Program Transition)
open Execution.Program (Ensures)
open Fleet (SignedEnvelope)
open Transaction (bind_eq_ok)

/-- An operation of the node belongs to the request. -/
def Store.Requested (s : Store) (nodeId key : String) : Prop :=
  ∃ (id : String) (o : Operation), s.operations[id]? = some o ∧ o.nodeId = nodeId ∧
    o.brokerEventKey = some key

/-- The request has an operation, or its closure was queued in the run. -/
def Store.Answered (s : Store) (run : List (Transition Store Event Answer)) (nodeId key : String) :
    Prop :=
  s.Requested nodeId key ∨ ∃ u ∈ run, ∃ r ∈ u.after.inbox, r.nodeId = nodeId ∧
    ∃ c, r.envelope.body = .operationClosed c ∧ c.requestEventKey = key

/-- Nothing in the tables speaks against the request: its workload is registered as it says, its
node is active, not changing keys and was heard from lately, there is a lifetime to grant, and
its key was used for nothing else and not cancelled. -/
def Store.accommodatesIntent (s : Store) (cfg : Config) (rc : RouteConfig) (nodeId : String)
    (event : NodeEventInput) (r : IntentReadings) (intent : BrowserIntent) : Bool :=
  let key := event.idempotencyKey
  (s.workloads[intent.workloadId]?.any fun w =>
    intent.fits nodeId w && decide (0 < w.localCeilingSeconds)) &&
  (s.nodes[nodeId]?.any fun n => n.status == .active && n.isOnline r.now) &&
  !s.rotations.contains nodeId &&
  ((browserRule? s.policy).all fun rule => decide (0 < rule.maxTtlSeconds)) &&
  ((s.nodeEvent? nodeId key).all fun e =>
    e.kind == .operationRequest && e.bodyHash == event.bodyHash) &&
  (s.operations.toList.all fun e =>
    !(e.1 == rc.operationId nodeId key ||
      (e.2.requestedBy == "workload:" ++ intent.workloadId &&
        e.2.idempotencyKey == rc.eventDigest nodeId key)) ||
    e.2.answers nodeId key event.bodyHash intent.workloadId) &&
  !(s.nodeEvent? nodeId (cfg.cancellationKey
    ⟨nodeId, intent.workloadId, intent.invocationId, key⟩)).any fun e => e.kind == .operationCancel

/-- The controller has no reason to discard the request: it is well formed and was observed
about now, and nothing in the tables speaks against it. -/
def Store.accommodates (s : Store) (cfg : Config) (rc : RouteConfig) (nodeId : String)
    (event : NodeEventInput) (r : IntentReadings) : Bool :=
  (BrowserIntent.ofValue? event.body).any fun intent =>
    intent.isWellFormed nodeId event.idempotencyKey && intent.isFresh r.now &&
      s.accommodatesIntent cfg rc nodeId event r intent

variable {cfg : Config} {rc : RouteConfig} {bytes : SignedEnvelope → ℕ} {s s' : Store}
  {run : List (Transition Store Event Answer)} {nodeId key : String}

/-! ### What creating an operation leaves behind -/

/-- The operation was made by the requester under the key of the draft. -/
def Operation.repeats (o : Operation) (draft : OperationDraft) : Prop :=
  o.requestedBy = draft.request.requestedBy ∧ o.idempotencyKey = draft.request.idempotencyKey

variable {outcome : OperationCreateOutcome}

variable {clock : CreationClock} {draft : OperationDraft}

theorem Store.insertRequest_created (h : s.insertRequest cfg draft clock = .ok (s', outcome)) :
    ∃ row : Operation, outcome = .created row ∧ s'.operations[draft.id]? = some row ∧
      row.nodeId = draft.request.nodeId ∧ row.brokerEventKey = draft.request.brokerEventKey := by
  unfold Store.insertRequest at h
  obtain ⟨⟨joined, approvalId⟩, -, h⟩ := bind_eq_ok.mp h
  obtain ⟨⟨inserted, row⟩, hinserted, h⟩ := bind_eq_ok.mp h
  have hrow : inserted.operations[draft.id]? = some row ∧
      row.nodeId = draft.request.nodeId ∧ row.brokerEventKey = draft.request.brokerEventKey := by
    unfold Store.insertOperation at hinserted
    dsimp only at hinserted
    split at hinserted
    · cases hinserted
    cases hinserted
    refine ⟨?_, rfl, rfl⟩
    change (Std.TreeMap.insert _ _ _)[draft.id]? = _
    rw [Table.getElem?_insert, if_pos rfl]
  dsimp only at h
  split at h
  · obtain ⟨closed, hclosed, h⟩ := bind_eq_ok.mp h
    cases h
    obtain ⟨docs, rfl, -⟩ := Store.enqueueClosures_cases hclosed
    exact ⟨row, rfl, hrow⟩
  · cases h
    exact ⟨row, rfl, hrow⟩

/-- The ways in which a request of a browser operation conflicts with what is there. -/
inductive Store.Clashes (s : Store) (cfg : Config) (draft : OperationDraft)
    (event : BrokerOperationEvent) : Prop
  | recorded {r : NodeEvent} : s.nodeEvent? event.nodeId event.key = some r →
      r.kind ≠ .operationRequest ∨ r.bodyHash ≠ event.bodyHash → Clashes s cfg draft event
  | repeated {id : String} {o : Operation} : s.operations[id]? = some o → o.repeats draft →
      o.requestHash ≠ draft.request.requestHash → Clashes s cfg draft event
  | taken : s.eventKeyTaken cfg draft.request = .ok true → Clashes s cfg draft event

theorem Store.operationByKey?_eq_some {requestedBy idempotencyKey id : String} {o : Operation}
    (h : s.operationByKey? requestedBy idempotencyKey = some (id, o)) :
    s.operations[id]? = some o ∧ o.requestedBy = requestedBy ∧ o.idempotencyKey = idempotencyKey := by
  have hmem := Std.TreeMap.mem_toList_iff_getElem?_eq_some.mp (List.mem_of_find?_eq_some h)
  have hcond := List.find?_some h
  simp only [Bool.and_eq_true, beq_iff_eq] at hcond
  exact ⟨hmem, hcond⟩

/-- What the outcome of a request says about the store before and after it. -/
theorem Store.createOperation_outcome {event : BrokerOperationEvent}
    (h : s.createOperation cfg draft (some event) clock = .ok (s', outcome)) :
    (∃ row : Operation, outcome = .created row ∧ s'.operations[draft.id]? = some row ∧
      row.nodeId = draft.request.nodeId ∧ row.brokerEventKey = draft.request.brokerEventKey) ∨
    (∃ id o, outcome = .existing id o ∧ s.operations[id]? = some o ∧ o.repeats draft) ∨
    (outcome = .conflict ∧ s.Clashes cfg draft event) ∨ outcome = .stale := by
  unfold Store.createOperation at h
  split at h
  · cases h
  split at h
  · cases h
  dsimp only at h
  split at h
  · next hrecorded =>
    cases h
    obtain ⟨r, hr, hcond⟩ := (Option.any_eq_true _ _).mp hrecorded
    refine .inr (.inr (.inl ⟨rfl, .recorded hr ?_⟩))
    simpa [bne_iff_ne] using hcond
  split at h
  · next id existing hfound =>
    obtain ⟨hexisting, hrepeats⟩ := Store.operationByKey?_eq_some hfound
    split at h
    · cases h
    split at h
    · cases h
      exact .inr (.inl ⟨id, existing, rfl, hexisting, hrepeats⟩)
    · next hhash =>
      cases h
      exact .inr (.inr (.inl ⟨rfl, .repeated hexisting hrepeats hhash⟩))
  · obtain ⟨taken, htaken, h⟩ := bind_eq_ok.mp h
    split at h
    · next htrue =>
      cases h
      subst htrue
      exact .inr (.inr (.inl ⟨rfl, .taken htaken⟩))
    iterate 3
      split at h
      · cases h
        exact .inr (.inr (.inr rfl))
    · obtain ⟨noted, -, h⟩ := bind_eq_ok.mp h
      exact .inl (Store.insertRequest_created h)

/-! ### The condition -/

/-- `Store.accommodatesIntent`, part by part. -/
structure Store.Welcomes (s : Store) (cfg : Config) (rc : RouteConfig) (nodeId : String)
    (event : NodeEventInput) (now : ℕ) (intent : BrowserIntent) : Prop where
  workload : ∃ w, s.workloads[intent.workloadId]? = some w ∧ intent.fits nodeId w = true ∧
    0 < w.localCeilingSeconds
  node : ∃ n, s.nodes[nodeId]? = some n ∧ n.status = .active ∧ n.isOnline now = true
  steady : s.rotations.contains nodeId = false
  lifetime : ∀ rule, browserRule? s.policy = some rule → 0 < rule.maxTtlSeconds
  receipt : ∀ e, s.nodeEvent? nodeId event.idempotencyKey = some e →
    e.kind = .operationRequest ∧ e.bodyHash = event.bodyHash
  operations : ∀ (id : String) o, s.operations[id]? = some o →
    id = rc.operationId nodeId event.idempotencyKey ∨
      (o.requestedBy = "workload:" ++ intent.workloadId ∧
        o.idempotencyKey = rc.eventDigest nodeId event.idempotencyKey) →
    o.answers nodeId event.idempotencyKey event.bodyHash intent.workloadId = true
  uncancelled : ∀ e, s.nodeEvent? nodeId (cfg.cancellationKey
    ⟨nodeId, intent.workloadId, intent.invocationId, event.idempotencyKey⟩) = some e →
    e.kind ≠ .operationCancel

theorem Store.welcomes_of_accommodatesIntent {event : NodeEventInput} {r : IntentReadings}
    {intent : BrowserIntent} (h : s.accommodatesIntent cfg rc nodeId event r intent = true) :
    s.Welcomes cfg rc nodeId event r.now intent := by
  simp only [Store.accommodatesIntent, Bool.and_eq_true, Option.any_eq_true, Option.all_eq_true,
    List.all_eq_true, Bool.not_eq_true', decide_eq_true_eq, beq_iff_eq] at h
  obtain ⟨⟨⟨⟨⟨⟨⟨w, hw, hfits, hceiling⟩, n, hn, hactive, honline⟩, hsteady⟩, hlifetime⟩, hreceipt⟩,
    hoperations⟩, huncancelled⟩ := h
  refine ⟨⟨w, hw, hfits, hceiling⟩, ⟨n, hn, hactive, honline⟩, hsteady, hlifetime, hreceipt, ?_, ?_⟩
  · intro id o ho hown
    have hall := hoperations (id, o) (Std.TreeMap.mem_toList_iff_getElem?_eq_some.mpr ho)
    simp only [Bool.or_eq_true, Bool.not_eq_true', Bool.or_eq_false_iff, Bool.and_eq_false_iff,
      beq_eq_false_iff_ne, ne_eq] at hall
    rcases hall with ⟨hid, hkey⟩ | hanswers
    · rcases hown with rfl | ⟨hby, hkey'⟩
      · exact absurd rfl hid
      · rcases hkey with hne | hne
        · exact absurd hby hne
        · exact absurd hkey' hne
    · exact hanswers
  · intro e he hkind
    rw [he] at huncancelled
    simp [hkind] at huncancelled

/-- A node that the route serves is active, where a request of it is welcome. -/
theorem Store.active_of_accommodates {event : NodeEventInput} {r : IntentReadings}
    {node : NodeRecord} {p : NodeRecord → Bool} (h : s.accommodates cfg rc nodeId event r = true)
    (hnode : (s.nodeRecord? nodeId).filter p = some node) : node.status = .active := by
  obtain ⟨intent, -, hcond⟩ := (Option.any_eq_true _ _).mp h
  simp only [Bool.and_eq_true] at hcond
  obtain ⟨n, hn, hactive, -⟩ := (Store.welcomes_of_accommodatesIntent hcond.2).node
  have hread := (Option.filter_eq_some_iff.mp hnode).1
  rw [Store.nodeRecord?, hn] at hread
  cases hread
  exact hactive

/-! ### Assertions that last -/

/-- Operations stay, with their requests. -/
theorem stable_requested : (controller cfg bytes).Stable
    fun run s => (controller cfg bytes).Run run s ∧ s.Requested nodeId key := by
  rintro run s e hadm ⟨hrun, id, o, ho, hnode, hkey⟩
  refine ⟨hrun.step hadm, ?_⟩
  have hw := step_writes cfg bytes (Run.coherent hrun) hadm
  obtain ⟨o', ho', hadvances⟩ := hw.operations Event.unchained id o ho
  refine ⟨id, o', ho', ?_, ?_⟩
  · rw [← hnode]
    exact congrArg OperationRequest.nodeId hadvances.request
  · rw [← hkey]
    exact congrArg OperationRequest.brokerEventKey hadvances.request

section Handling

variable {C : Store → Prop} {b : Prop}

theorem stable_during : ((controller cfg bytes).within C).Stable
    fun run s => (controller cfg bytes).Run run s ∧ C s :=
  Machine.stable_run.within.and Machine.stable_within

/-- The store is one of the run, the condition holds, and if `b` then the request has its
operation. -/
def ServedIf (cfg : Config) (bytes : SignedEnvelope → ℕ) (C : Store → Prop) (nodeId key : String)
    (b : Prop) (run : List (Transition Store Event Answer)) (s : Store) : Prop :=
  ((controller cfg bytes).Run run s ∧ C s) ∧ (b → s.Requested nodeId key)

theorem stable_servedIf :
    ((controller cfg bytes).within C).Stable (ServedIf cfg bytes C nodeId key b) := by
  rintro run s e hadm ⟨⟨hrun, -⟩, hrequested⟩
  refine ⟨⟨hrun.step hadm.1, hadm.2⟩, fun hb => ?_⟩
  exact (stable_requested run s e hadm.1 ⟨hrun, hrequested hb⟩).2

theorem stable_servedIf_fact {G : Prop} : ((controller cfg bytes).within C).Stable
    fun run s => ServedIf cfg bytes C nodeId key b run s ∧ G := by
  intro run s e hadm h
  exact ⟨stable_servedIf run s e hadm h.1, h.2⟩

variable {α : Type}

variable {Q : α → Prop}

/-- If `b` tells of the operation before the program, then `Q` of its result does afterwards. -/
abbrev Serves (cfg : Config) (bytes : SignedEnvelope → ℕ) (C : Store → Prop) (nodeId key : String)
    (b : Prop) (p : Route α) (Q : α → Prop) : Prop :=
  Ensures ((controller cfg bytes).within C) (ServedIf cfg bytes C nodeId key b) p
    fun a => ServedIf cfg bytes C nodeId key (Q a)

/-- A result that promises no more than is known. -/
theorem ensures_done {a : α} (h : Q a → b) : Serves cfg bytes C nodeId key b (.done a) Q :=
  .pure stable_servedIf fun _ _ hpre => ⟨hpre.1, fun hq => hpre.2 (h hq)⟩

/-- Once the operation is there it stays, whatever the program does. -/
theorem ensures_served {p : Route α} (hb : b) : Serves cfg bytes C nodeId key b p Q :=
  (Ensures.frame stable_servedIf).weaken (fun _ _ h => h) fun _ _ _ h => ⟨h.1, fun _ => h.2 hb⟩

theorem ensures_get {f : Store → α} {G : α → Prop} (hG : ∀ s, C s → G (f s)) :
    Ensures ((controller cfg bytes).within C) (ServedIf cfg bytes C nodeId key b) (Program.get f)
      fun a run s => ServedIf cfg bytes C nodeId key b run s ∧ G a := by
  exact .get stable_servedIf (fun _ => stable_servedIf_fact) fun run s hpre => ⟨hpre, hG s hpre.1.2⟩

/-! ### One request -/

section Request

variable {event : NodeEventInput} {r : IntentReadings} {intent : BrowserIntent}

/-- The result of a request that is not to be repeated. -/
def IsAnswer (result : Except IntentFailure Bool) : Prop := result ≠ .error .unavailable

variable {rule : Option PolicyRule} {w : Workload}

theorem BrowserIntent.effectiveTtl_pos (hformed : intent.isWellFormed nodeId key = true)
    (hceiling : 0 < w.localCeilingSeconds) (hrule : ∀ x, rule = some x → 0 < x.maxTtlSeconds) :
    0 < intent.effectiveTtl rule w := by
  have hasked : 0 < intent.ttlSeconds := by
    simp only [BrowserIntent.isWellFormed, Bool.and_eq_true, decide_eq_true_eq] at hformed
    omega
  have hallowed : 0 < rule.elim 120 PolicyRule.maxTtlSeconds := by
    cases rule with
    | none => decide
    | some x => exact hrule x rfl
  exact Nat.lt_min.mpr ⟨Nat.lt_min.mpr ⟨hasked, hallowed⟩, hceiling⟩

theorem Store.used_of_eventKeyTaken {request : OperationRequest}
    (htaken : s.eventKeyTaken cfg request = .ok true)
    (huncancelled : ∀ key, request.brokerEventKey = some key →
      ∀ e, s.nodeEvent? request.nodeId (cfg.cancellationKey (request.cancellation key)) = some e →
        e.kind ≠ .operationCancel) :
    ∃ key, request.brokerEventKey = some key ∧ s.Requested request.nodeId key := by
  rw [Store.eventKeyTaken.eq_def] at htaken
  split at htaken
  · cases htaken
  next key hkey =>
  refine ⟨key, hkey, ?_⟩
  have hused : (s.operations.toList.any fun e =>
      e.2.nodeId == request.nodeId && e.2.brokerEventKey == some key) = true := by
    split at htaken
    · split at htaken
      · cases htaken
      · have hor := Except.ok.inj htaken
        rcases Bool.or_eq_true_iff.mp hor with hcancelled | hused
        · obtain ⟨e, he, hkind⟩ := (Option.any_eq_true _ _).mp hcancelled
          exact absurd (eq_of_beq hkind) (huncancelled key hkey e he)
        · exact hused
    · exact Except.ok.inj htaken
  obtain ⟨⟨id, o⟩, ho, hown⟩ := List.any_eq_true.mp hused
  simp only [Bool.and_eq_true, beq_iff_eq] at hown
  exact ⟨id, o, Std.TreeMap.mem_toList_iff_getElem?_eq_some.mp ho, hown⟩

variable {policyVersion : ℕ}

/-- What the store does with the draft of a request, where the request is welcome. -/
theorem Store.createOperation_requested (hwelcome : s.Welcomes cfg rc nodeId event r.now intent)
    (h : s.createOperation cfg
      (intent.draft rc nodeId event.idempotencyKey event.bodyHash w rule policyVersion r.now)
      (some (intent.evidence rc nodeId event.idempotencyKey event.bodyHash)) r.creation =
        .ok (s', outcome)) (hoffered : outcome ≠ .stale)
    (hstays : ∀ {nodeId key}, s.Requested nodeId key → s'.Requested nodeId key) :
    s'.Requested nodeId event.idempotencyKey := by
  have hanswers : ∀ (id : String) o, s.operations[id]? = some o →
      o.repeats (intent.draft rc nodeId event.idempotencyKey event.bodyHash w rule policyVersion
        r.now) → o.answers nodeId event.idempotencyKey event.bodyHash intent.workloadId = true :=
    fun id o ho hrepeats => hwelcome.operations id o ho (.inr hrepeats)
  rcases Store.createOperation_outcome h with ⟨row, -, hrow, hnode, hkey⟩ |
    ⟨id, o, -, ho, hrepeats⟩ | ⟨-, hclash⟩ | hstale
  · exact ⟨_, row, hrow, hnode, hkey⟩
  · have hown := hanswers id o ho hrepeats
    simp only [Operation.answers, Bool.and_eq_true, beq_iff_eq] at hown
    exact hstays ⟨id, o, ho, hown.1.1.1.2, hown.1.2⟩
  · cases hclash with
    | recorded hr hother =>
      obtain ⟨hkind, hhash⟩ := hwelcome.receipt _ hr
      rcases hother with hne | hne
      · exact absurd hkind hne
      · exact absurd hhash hne
    | repeated ho hrepeats hhash =>
      have hown := hanswers _ _ ho hrepeats
      simp only [Operation.answers, Bool.and_eq_true, beq_iff_eq] at hown
      exact absurd hown.1.1.1.1 hhash
    | taken htaken =>
      -- the key was not cancelled, so an operation uses it
      obtain ⟨key, hkey, hused⟩ := Store.used_of_eventKeyTaken htaken fun key hkey e he =>
        hwelcome.uncancelled e (Option.some.inj hkey ▸ he)
      cases hkey
      exact hstays hused
  · exact absurd hstale hoffered

/-- The answer says that the request has an operation. -/
def Answer.tellsOfOperation : Answer → Prop
  | .created .stale => False
  | .created _ => True
  | _ => False

theorem step_requested {e : Event} (hwelcome : s.Welcomes cfg rc nodeId event r.now intent)
    (he : e = .createOperation
      (intent.draft rc nodeId event.idempotencyKey event.bodyHash w rule policyVersion r.now)
      (some (intent.evidence rc nodeId event.idempotencyKey event.bodyHash)) r.creation)
    (hrun : (controller cfg bytes).Run run s) (hadm : (controller cfg bytes).Admits s e)
    (htells : (s.step cfg bytes e).2.tellsOfOperation) :
    (s.step cfg bytes e).1.Requested nodeId event.idempotencyKey := by
  have hstays : ∀ {nodeId key : String}, s.Requested nodeId key →
      (s.step cfg bytes e).1.Requested nodeId key := fun hrequested =>
    (stable_requested run s e hadm ⟨hrun, hrequested⟩).2
  subst he
  dsimp only [Store.step] at htells hstays ⊢
  rcases hresult : s.createOperation cfg _ _ r.creation with error | ⟨t, outcome⟩
  · rw [hresult] at htells
    exact htells.elim
  rw [hresult] at htells hstays
  refine Store.createOperation_requested hwelcome hresult ?_ hstays
  rintro rfl
  exact htells

theorem createRequest_answers (hC : ∀ s, C s → s.Welcomes cfg rc nodeId event r.now intent)
    (hformed : intent.isWellFormed nodeId event.idempotencyKey = true)
    (hceiling : 0 < w.localCeilingSeconds) : Serves cfg bytes C nodeId event.idempotencyKey False
      (createRequest cfg rc r nodeId event.idempotencyKey event.bodyHash intent w) IsAnswer := by
  refine .bind (ensures_get (f := Store.policy)
    (G := fun policy => ∀ rule, browserRule? policy = some rule → 0 < rule.maxTtlSeconds)
    fun s hs => (hC s hs).lifetime) fun policy => ?_
  refine .assume (fun _ _ h => h) fun hlifetime => ?_
  have hpos := BrowserIntent.effectiveTtl_pos hformed hceiling hlifetime
  rw [if_neg hpos.ne']
  split
  · exact ensures_done fun hanswer => hanswer rfl
  refine .bind (Q := fun answer => ServedIf cfg bytes C nodeId event.idempotencyKey
    answer.tellsOfOperation) ?_ fun answer => ?_
  · refine .send stable_servedIf (fun _ => stable_servedIf) ?_
    rintro run s hadm ⟨⟨hrun, hc⟩, -⟩
    refine ⟨⟨hrun.step hadm.1, hadm.2⟩, fun htells => ?_⟩
    exact step_requested (hC s hc) rfl hrun hadm.1 htells
  · split
    · exact .bind (ensures_served trivial) fun _ => ensures_served trivial
    · exact .bind (ensures_served trivial) fun _ => ensures_served trivial
    · exact ensures_done fun _ => trivial
    · exact ensures_done fun hanswer => absurd rfl hanswer

theorem admitRequest_answers (hC : ∀ s, C s → s.Welcomes cfg rc nodeId event r.now intent)
    (hformed : intent.isWellFormed nodeId event.idempotencyKey = true)
    (hfresh : intent.isFresh r.now = true) : Serves cfg bytes C nodeId event.idempotencyKey False
      (admitRequest cfg rc r nodeId event.idempotencyKey event.bodyHash intent) IsAnswer := by
  refine .bind (ensures_get (G := fun w => ∃ x : Workload, w = some x ∧ 0 < x.localCeilingSeconds)
    fun s hs => ?_) fun found => ?_
  · obtain ⟨w, hw, hfits, hceiling⟩ := (hC s hs).workload
    exact ⟨w, by simp [hw, hfits], hceiling⟩
  refine .assume (fun _ _ h => h) ?_
  rintro ⟨w, rfl, hceiling⟩
  refine .bind (ensures_get (G := fun n => ∃ x : Node, n = some x ∧ x.isOnline r.now = true)
    fun s hs => ?_) fun found => ?_
  · obtain ⟨n, hn, hactive, honline⟩ := (hC s hs).node
    exact ⟨n, by simp [hn, hactive, (hC s hs).steady], honline⟩
  refine .assume (fun _ _ h => h) ?_
  rintro ⟨n, rfl, honline⟩
  simp only [hfresh, honline, Bool.not_true, Bool.or_self, Bool.false_eq_true, if_false]
  exact createRequest_answers hC hformed hceiling

/-- A request that is welcome all the while is answered, unless it is to be repeated. -/
theorem applyVerifiedRequest_answers {duplicate : Bool}
    (hC : ∀ s, C s → s.accommodates cfg rc nodeId event r = true) :
    Serves cfg bytes C nodeId event.idempotencyKey False
      (applyVerifiedRequest cfg rc r nodeId event.idempotencyKey event.body event.bodyHash duplicate)
      IsAnswer := by
  refine .assume (G := ∃ intent, BrowserIntent.ofValue? event.body = some intent ∧
    intent.isWellFormed nodeId event.idempotencyKey = true ∧ intent.isFresh r.now = true)
    (fun run s hpre => ⟨hpre, ?_⟩) ?_
  · obtain ⟨intent, hparsed, hcond⟩ := (Option.any_eq_true _ _).mp (hC s hpre.1.2)
    simp only [Bool.and_eq_true] at hcond
    exact ⟨intent, hparsed, hcond.1⟩
  rintro ⟨intent, hparsed, hformed, hfresh⟩
  have hwelcome : ∀ s, C s → s.Welcomes cfg rc nodeId event r.now intent := by
    intro s hs
    obtain ⟨intent', hparsed', hcond⟩ := (Option.any_eq_true _ _).mp (hC s hs)
    obtain rfl := Option.mem_unique hparsed hparsed'
    simp only [Bool.and_eq_true] at hcond
    exact Store.welcomes_of_accommodatesIntent hcond.2
  simp only [applyVerifiedRequest, hparsed, hformed, Bool.not_true, Bool.false_eq_true, if_false]
  refine .bind (Ensures.frame stable_servedIf) fun answer => ?_
  split
  · exact ensures_done fun hanswer => absurd rfl hanswer
  refine .bind (Q := fun found => ServedIf cfg bytes C nodeId event.idempotencyKey
    (found.isSome = true)) ?_ fun found => ?_
  · refine .get stable_servedIf (fun _ => stable_servedIf) ?_
    rintro run s ⟨⟨hrun, hc⟩, -⟩
    refine ⟨⟨hrun, hc⟩, fun hfound => ?_⟩
    obtain ⟨o, ho⟩ := Option.isSome_iff_exists.mp hfound
    have hanswers := (hwelcome s hc).operations _ o ho (.inl rfl)
    simp only [Operation.answers, Bool.and_eq_true, beq_iff_eq] at hanswers
    exact ⟨_, o, ho, hanswers.1.1.1.2, hanswers.1.2⟩
  · split
    · exact ensures_served rfl
    · split
      · exact ensures_done fun hanswer => absurd rfl hanswer
      · refine (admitRequest_answers hwelcome hformed hfresh).weaken ?_ fun _ _ _ h => h
        exact fun _ _ h => ⟨h.1, False.elim⟩

end Request

/-! ### A batch -/

/-- The event is taken from the queue. -/
def IsSettled : Except EventFailure Bool → Prop
  | .ok _ => True
  | .error failure => failure.isFinal = true

theorem isAnswer_of_isSettled {result : Except IntentFailure Bool}
    (h : IsSettled (result.mapError .fromIntent)) : IsAnswer result := by
  rintro rfl
  cases h

section Batch

variable {claims : NodeSessionClaims} {node : NodeRecord} {publicKey : String}

variable {event : NodeEventInput}

theorem verifyNodeEvent_retains
    (hC : ∀ s, C s → ∀ e, s.nodeEvent? claims.nodeId event.idempotencyKey = some e →
      e.bodyHash = event.bodyHash) : Ensures ((controller cfg bytes).within C)
      (ServedIf cfg bytes C claims.nodeId event.idempotencyKey False)
      (verifyNodeEvent claims node publicKey event)
      fun result run s => ServedIf cfg bytes C claims.nodeId event.idempotencyKey False run s ∧
        ∀ failure, result = .error failure → failure.isFinal = false := by
  have hdone : ∀ result : Except EventFailure Bool,
      (∀ failure, result = .error failure → failure.isFinal = false) →
      Ensures ((controller cfg bytes).within C)
        (ServedIf cfg bytes C claims.nodeId event.idempotencyKey False) (.done result)
        fun result run s => ServedIf cfg bytes C claims.nodeId event.idempotencyKey False run s ∧
          ∀ failure, result = .error failure → failure.isFinal = false :=
    fun result hresult => .pure stable_servedIf_fact fun _ _ hpre => ⟨hpre, hresult⟩
  have hinvalid : ∀ failure : EventFailure,
      (.error .invalid : Except EventFailure Bool) = .error failure → failure.isFinal = false := by
    rintro failure ⟨⟩
    rfl
  refine .bind (ensures_get (G := fun prior : Option NodeEvent =>
    ∀ e, prior = some e → e.bodyHash = event.bodyHash) fun s hs => ?_) fun prior => ?_
  · intro e he
    unfold Store.recordedNodeEvent? at he
    split at he
    · exact hC s hs e he
    · cases he
  refine .assume (fun _ _ h => h) fun hprior => ?_
  cases prior with
  | none =>
    refine hdone _ ?_
    split
    · exact fun _ h => absurd h nofun
    · exact hinvalid
  | some e =>
    dsimp only
    rw [if_neg (not_not.mpr (hprior e rfl))]
    split
    · exact hdone _ fun _ h => absurd h nofun
    split
    · refine .bind (Ensures.frame stable_servedIf) fun found => ?_
      cases found with
      | none => exact hdone _ hinvalid
      | some =>
        refine hdone _ ?_
        split
        · exact fun _ h => absurd h nofun
        · exact hinvalid
    · exact hdone _ hinvalid

theorem applyNodeEvent_answers {r : EventReadings} (hrequest : event.isBrowserRequest = true)
    (hactive : node.status = .active)
    (hC : ∀ s, C s → s.accommodates cfg rc claims.nodeId event r.intent = true) :
    Serves cfg bytes C claims.nodeId event.idempotencyKey False
      (applyNodeEvent cfg rc r claims node publicKey event) IsSettled := by
  have hinvalid : Serves cfg bytes C claims.nodeId event.idempotencyKey False
      (.done (.error .invalid : Except EventFailure Bool)) IsSettled :=
    ensures_done fun h => absurd h nofun
  unfold applyNodeEvent
  split
  · exact hinvalid
  refine .bind (verifyNodeEvent_retains fun s hs e he => ?_) fun verified => ?_
  · obtain ⟨intent, -, hcond⟩ := (Option.any_eq_true _ _).mp (hC s hs)
    simp only [Bool.and_eq_true] at hcond
    exact ((Store.welcomes_of_accommodatesIntent hcond.2).receipt e he).2
  refine .assume (fun _ _ h => h) fun hretains => ?_
  cases verified with
  | error failure =>
    refine ensures_done fun hsettled => ?_
    exact Bool.noConfusion ((hretains failure rfl).symm.trans hsettled)
  | ok =>
    have hunrevoked : (node.status == .revoked) = false := by
      rw [hactive]
      rfl
    simp only [hrequest, hunrevoked, Bool.not_true, Bool.and_false, Bool.false_and,
      Bool.false_eq_true, if_false]
    split
    · exact hinvalid
    · refine .bind (applyVerifiedRequest_answers hC) fun result => ?_
      exact ensures_done isAnswer_of_isSettled

/-- The events that the batch acknowledges are its first ones, and the requests among them have
operations. -/
def Acknowledges (cfg : Config) (bytes : SignedEnvelope → ℕ) (C : Store → Prop) (nodeId : String)
    (prior : List String) (events : List (NodeEventInput × EventReadings)) (keys : List String)
    (run : List (Transition Store Event Answer)) (s : Store) : Prop :=
  ((controller cfg bytes).Run run s ∧ C s) ∧ ∃ n,
    keys = prior ++ (events.take n).map (fun e => e.1.idempotencyKey) ∧
    ∀ e ∈ events.take n, e.1.isBrowserRequest = true → s.Requested nodeId e.1.idempotencyKey

variable {events : List (NodeEventInput × EventReadings)}

theorem stable_acknowledges {prior keys : List String} : ((controller cfg bytes).within C).Stable
      (Acknowledges cfg bytes C nodeId prior events keys) := by
  rintro run s e hadm ⟨⟨hrun, -⟩, n, hkeys, hrequested⟩
  refine ⟨⟨hrun.step hadm.1, hadm.2⟩, n, hkeys, fun event hevent hbrowser => ?_⟩
  exact (stable_requested run s e hadm.1 ⟨hrun, hrequested event hevent hbrowser⟩).2

/-- What the handling of one event of a batch leaves for the rest. -/
theorem applyNodeEvent_serves {e : NodeEventInput × EventReadings}
    (hactive : e.1.isBrowserRequest = true → node.status = .active)
    (hC : e.1.isBrowserRequest = true → ∀ s, C s →
      s.accommodates cfg rc claims.nodeId e.1 e.2.intent = true) :
    Ensures ((controller cfg bytes).within C) (fun run s => (controller cfg bytes).Run run s ∧ C s)
      (applyNodeEvent cfg rc e.2 claims node publicKey e.1)
      fun result => ServedIf cfg bytes C claims.nodeId e.1.idempotencyKey
        (e.1.isBrowserRequest = true ∧ IsSettled result) := by
  by_cases hrequest : e.1.isBrowserRequest = true
  · refine (applyNodeEvent_answers hrequest (hactive hrequest) (hC hrequest)).weaken ?_ ?_
    · exact fun _ _ hpre => ⟨hpre, False.elim⟩
    · exact fun _ _ _ h => ⟨h.1, fun hcond => h.2 hcond.2⟩
  · refine (Ensures.frame stable_during).weaken (fun _ _ hpre => hpre) ?_
    exact fun _ _ _ h => ⟨h, fun hcond => absurd hcond.1 hrequest⟩

theorem applyBatch_acknowledges {progress : BatchProgress}
    (hactive : ∀ e ∈ events, e.1.isBrowserRequest = true → node.status = .active)
    (hC : ∀ e ∈ events, e.1.isBrowserRequest = true → ∀ s, C s →
      s.accommodates cfg rc claims.nodeId e.1 e.2.intent = true) :
    Ensures ((controller cfg bytes).within C) (fun run s => (controller cfg bytes).Run run s ∧ C s)
      (applyBatch cfg rc claims node publicKey progress events)
      fun result => Acknowledges cfg bytes C claims.nodeId progress.acceptedKeys events
        result.acceptedKeys := by
  induction events generalizing progress with
  | nil =>
    refine .pure stable_acknowledges fun run s hpre => ⟨hpre, 0, ?_, ?_⟩
    all_goals simp
  | cons e rest ih =>
    refine .bind (applyNodeEvent_serves (hactive e (.head _)) (hC e (.head _)))
      fun result => ?_
    -- the batch ends here: nothing of it is acknowledged
    have hstop : ∀ ended : BatchProgress, ended.acceptedKeys = progress.acceptedKeys →
        Ensures ((controller cfg bytes).within C)
          (ServedIf cfg bytes C claims.nodeId e.1.idempotencyKey
            (e.1.isBrowserRequest = true ∧ IsSettled result)) (.done ended)
          fun final => Acknowledges cfg bytes C claims.nodeId progress.acceptedKeys (e :: rest)
            final.acceptedKeys := by
      intro ended hended
      refine .pure stable_acknowledges fun run s hpre => ⟨hpre.1, 0, ?_, ?_⟩
      · simp [hended]
      · simp
    -- the event is acknowledged, and the batch goes on
    have hgo : ∀ next : BatchProgress,
        next.acceptedKeys = progress.acceptedKeys ++ [e.1.idempotencyKey] → IsSettled result →
        Ensures ((controller cfg bytes).within C)
          (ServedIf cfg bytes C claims.nodeId e.1.idempotencyKey
            (e.1.isBrowserRequest = true ∧ IsSettled result))
          (applyBatch cfg rc claims node publicKey next rest)
          fun final => Acknowledges cfg bytes C claims.nodeId progress.acceptedKeys (e :: rest)
            final.acceptedKeys := by
      intro next hnext hsettled
      have hrest : Ensures ((controller cfg bytes).within C) _
          (applyBatch cfg rc claims node publicKey next rest) _ :=
        ih (fun e' he' => hactive e' (.tail e he'))
          fun e' he' => hC e' (.tail e he')
      refine ((hrest.weaken (fun _ _ h => h.1) fun _ _ _ h => h).and
        (Ensures.frame stable_servedIf)).weaken (fun _ _ h => h) ?_
      rintro final run s ⟨⟨hduring, n, hkeys, hrequested⟩, -, hfirst⟩
      refine ⟨hduring, n + 1, ?_, ?_⟩
      · rw [hkeys, hnext]
        simp
      intro e' he' hbrowser
      rcases List.mem_cons.mp he' with rfl | he'
      · exact hfirst ⟨hbrowser, hsettled⟩
      · exact hrequested e' he' hbrowser
    cases result with
    | ok fresh =>
      cases fresh with
      | true | false => exact hgo _ rfl trivial
    | error failure =>
      dsimp only
      split
      · exact hstop _ rfl
      next hfinal =>
      split
      · exact hstop _ rfl
      · refine hgo _ rfl ?_
        change failure.isFinal = true
        simpa using hfinal

/-- The route acknowledges no request without an operation, as long as the condition holds. -/
theorem nodeEvents_acknowledges {authenticatedAtMs acknowledgedAtMs : ℕ}
    (hC : ∀ e ∈ events, e.1.isBrowserRequest = true → ∀ s, C s →
      s.accommodates cfg rc claims.nodeId e.1 e.2.intent = true) :
    Ensures ((controller cfg bytes).within C) (controller cfg bytes).Run
      (nodeEvents cfg rc claims events authenticatedAtMs acknowledgedAtMs)
      fun response => Acknowledges cfg bytes C claims.nodeId [] events response.acknowledged := by
  have hnone : ∀ response : EventsResponse, response.acknowledged = [] →
      Ensures ((controller cfg bytes).within C)
        (fun run s => (controller cfg bytes).Run run s ∧ C s) (.done response)
        fun response => Acknowledges cfg bytes C claims.nodeId [] events response.acknowledged := by
    intro response hresponse
    refine .pure stable_acknowledges fun run s hpre => ⟨hpre, 0, ?_, ?_⟩
    · simp [hresponse]
    · simp
  -- the condition is known from the authentication on
  refine .bind (Q := fun _ run s => (controller cfg bytes).Run run s ∧ C s) ?_ fun answer => ?_
  · refine .send Machine.stable_run.within (fun _ => stable_during) ?_
    exact fun run s hadm hrun => ⟨hrun.step hadm.1, hadm.2⟩
  split
  swap
  · exact hnone _ rfl
  split
  · exact hnone _ rfl
  refine .bind (Q := fun found run s => ((controller cfg bytes).Run run s ∧ C s) ∧
    ∀ e ∈ events, e.1.isBrowserRequest = true → ∀ node, found = some node → node.status = .active)
    ?_ fun found => ?_
  · refine .get stable_during (fun found => ?_) fun run s hpre => ⟨hpre, ?_⟩
    · intro run s e hadm h
      exact ⟨stable_during run s e hadm h.1, h.2⟩
    · intro e he hbrowser node hnode
      exact Store.active_of_accommodates (hC e he hbrowser s hpre.2) hnode
  refine .assume (fun _ _ h => h) fun hactive => ?_
  cases found with
  | none => exact hnone _ rfl
  | some node =>
    refine .bind (Ensures.frame stable_during) fun key => ?_
    cases key with
    | none => exact hnone _ rfl
    | some =>
      refine .bind (applyBatch_acknowledges
        (fun e he hbrowser => hactive e he hbrowser node rfl) hC) fun progress => ?_
      have hfinal : ∀ response : EventsResponse,
          (response.acknowledged = progress.acceptedKeys ∨ response.acknowledged = []) →
          Ensures ((controller cfg bytes).within C)
            (Acknowledges cfg bytes C claims.nodeId [] events progress.acceptedKeys)
            (.done response) fun response =>
              Acknowledges cfg bytes C claims.nodeId [] events response.acknowledged := by
        rintro response (hkeys | hkeys)
        · refine .pure stable_acknowledges fun run s hpre => ?_
          rw [hkeys]
          exact hpre
        · exact (hnone response hkeys).weaken (fun _ _ hpre => hpre.1) fun _ _ _ h => h
      split
      · exact hfinal _ (.inr rfl)
      · exact hfinal _ (.inr rfl)
      refine .bind (Ensures.frame stable_acknowledges) fun issuerEpoch => ?_
      split
      · exact hfinal _ (.inl rfl)
      · exact hfinal _ (.inr rfl)

end Batch

end Handling

/-- Acknowledged requests are answered, if no reason to discard one of them comes up while the
batch is handled. -/
theorem acknowledged_answered {claims : NodeSessionClaims}
    {events : List (NodeEventInput × EventReadings)} {authenticatedAtMs acknowledgedAtMs : ℕ}
    {new : List (Transition Store Event Answer)} {response : EventsResponse}
    (hrun : (controller cfg bytes).Run run s)
    (hexec : (nodeEvents cfg rc claims events authenticatedAtMs acknowledgedAtMs).Exec
      (controller cfg bytes) run s (run ++ new) s' response)
    (haccommodates : ∀ u ∈ new, ∀ e ∈ events, e.1.isBrowserRequest = true →
      u.after.accommodates cfg rc claims.nodeId e.1 e.2.intent = true) :
    ∃ n, response.acknowledged = (events.take n).map (fun e => e.1.idempotencyKey) ∧
      ∀ e ∈ events.take n, e.1.isBrowserRequest = true →
        s'.Answered (run ++ new) claims.nodeId e.1.idempotencyKey := by
  have hwithin := hexec.within (C := fun t => ∀ e ∈ events, e.1.isBrowserRequest = true →
    t.accommodates cfg rc claims.nodeId e.1 e.2.intent = true) rfl haccommodates
  obtain ⟨-, n, hkeys, hrequested⟩ := nodeEvents_acknowledges
    (fun e he hbrowser s hs => hs e he hbrowser) run s (run ++ new) s' response hrun hwithin
  exact ⟨n, hkeys, fun e he hbrowser => .inl (hrequested e he hbrowser)⟩

/-! ### A request that is accepted, and one that is discarded -/

namespace Sample

def browserWorkload : Workload :=
  { workload with name := "browser", unit := "browser.service", consumptionMode := .browserSession }

def browserRegistration : SignedEnvelope :=
  ⟨1, .registration ⟨"node-1", "workload-1", "browser.service", "backup", none, "active",
    .browserSession, 1, 1, 60⟩⟩

/-- The relay of a node with a browser workload is connected. -/
def connected : List Event :=
  [.approveEnrollment enrollment 1000,
    .createWorkload "workload-1" browserWorkload browserRegistration snapshot,
    .createNodeSession
      ⟨"node-1", 1, 1, "1", "none", "nonce-1", 99000, "session-1", "token-1", 99000⟩ 3000]

def routeConfig : RouteConfig where
  approvalTtlSeconds := 300
  fulfillmentsEnabled := false
  eventDigest nodeId key := nodeId ++ "-" ++ key

def session : NodeSessionClaims := ⟨"node-1", "session-1", 1, 1, "1", "token-1"⟩

/-- The broker saw the workload ask for a browser at the time 5000. -/
def browserRequest : NodeEventInput where
  idempotencyKey := "event-key-000001"
  kind := "operation_request"
  body := .object
    [("account", .string "backup"), ("action", .string "browser.session"),
      ("invocation_id", .string "0123456789abcdef0123456789abcdef"),
      ("mode", .string "browser_session"), ("node_id", .string "node-1"),
      ("observed_at_ms", .unsigned 5000), ("purpose", .string "login"),
      ("request_version", .unsigned 2), ("resource_id", .string "resource-1"),
      ("ttl_seconds", .unsigned 60), ("unit", .string "browser.service"),
      ("workload_id", .string "workload-1")]
  signedBy := "sign-1"
  bodyHash := "hash-1"
  canonical := true

def sweepAt (now : ℕ) : SweepClock := ⟨now, fun _ => now, now, now, now, now, now, now⟩

/-- All clocks of the handling show the same time. -/
def readings (now : ℕ) : EventReadings where
  intent :=
    { sweep := sweepAt now
      now := now
      creation := ⟨now, now, now, now⟩
      issuance := ⟨fun _ => now, fun id => "gr_" ++ id, now, now⟩
      resweep := sweepAt now }
  now := now
  eventId := "event-1"
  auditRow := none
  foreign := .ok .inserted
  rejectionRecorded := true

/-- The request is forwarded at the given time. -/
def forward (now : ℕ) : Route EventsResponse :=
  nodeEvents config routeConfig session [(browserRequest, readings now)] now now

def forwarded (now : ℕ) : List (Transition Store Event Answer) × Store × EventsResponse :=
  (forward now).alone (controller config fun _ => 100) (play connected).2

theorem connected_run : (controller config fun _ => 100).Run (play connected).1 (play connected).2 :=
  Machine.run_play start_admitted (by decide +kernel)

/-- The document closes an operation. -/
def isClosure : Fleet.Document → Bool
  | .operationClosed _ => true
  | _ => false

end Sample

theorem acknowledged_answered_denied :
    (Sample.forwarded 6000).2.2.acknowledged = ["event-key-000001"] ∧
    (∀ u ∈ (Sample.forwarded 6000).1, u.after.accommodates Sample.config Sample.routeConfig "node-1"
      Sample.browserRequest (Sample.readings 6000).intent = true) ∧
    ∃ n, (Sample.forwarded 6000).2.2.acknowledged =
        ([(Sample.browserRequest, Sample.readings 6000)].take n).map (fun e => e.1.idempotencyKey) ∧
      ∀ e ∈ [(Sample.browserRequest, Sample.readings 6000)].take n, e.1.isBrowserRequest = true →
        (Sample.forwarded 6000).2.1.Answered
          ((Sample.play Sample.connected).1 ++ (Sample.forwarded 6000).1) "node-1"
          e.1.idempotencyKey := by
  have hclear : ∀ u ∈ (Sample.forwarded 6000).1, u.after.accommodates Sample.config
      Sample.routeConfig "node-1" Sample.browserRequest (Sample.readings 6000).intent = true := by
    decide +kernel
  have hadm : (Sample.forward 6000).AdmitsAlone (controller Sample.config fun _ => 100)
      (Sample.play Sample.connected).2 := by decide +kernel
  refine ⟨by decide +kernel, hclear, ?_⟩
  refine acknowledged_answered Sample.connected_run (Program.exec_alone hadm) ?_
  intro u hu e he _
  rw [List.mem_singleton.mp he]
  exact hclear u hu

/-- A correctly signed request of an active node that comes a minute late is discarded and
acknowledged. It has no operation then, and no closure was ever queued. -/
theorem discarded_unanswered :
    (controller Sample.config fun _ => 100).Run (Sample.play Sample.connected).1
      (Sample.play Sample.connected).2 ∧
    (Sample.forward 66000).Exec (controller Sample.config fun _ => 100)
      (Sample.play Sample.connected).1 (Sample.play Sample.connected).2
      ((Sample.play Sample.connected).1 ++ (Sample.forwarded 66000).1)
      (Sample.forwarded 66000).2.1 (Sample.forwarded 66000).2.2 ∧
    Sample.browserRequest.isBrowserRequest = true ∧
    (Sample.forwarded 66000).2.1.nodes["node-1"]?.map Node.status = some .active ∧
    (Sample.forwarded 66000).2.1.nodeSigningPublicKey? "node-1" 1 =
      some Sample.browserRequest.signedBy ∧
    Sample.browserRequest.idempotencyKey ∈ (Sample.forwarded 66000).2.2.acknowledged ∧
    ¬ (Sample.forwarded 66000).2.1.Answered
      ((Sample.play Sample.connected).1 ++ (Sample.forwarded 66000).1) "node-1"
      Sample.browserRequest.idempotencyKey := by
  have hadm : (Sample.forward 66000).AdmitsAlone (controller Sample.config fun _ => 100)
      (Sample.play Sample.connected).2 := by decide +kernel
  refine ⟨Sample.connected_run, Program.exec_alone hadm, by decide +kernel, by decide +kernel,
    by decide +kernel, by decide +kernel, ?_⟩
  have hoperations : (Sample.forwarded 66000).2.1.operations.toList = [] := by decide +kernel
  have hinbox : (((Sample.play Sample.connected).1 ++ (Sample.forwarded 66000).1).all fun u =>
      u.after.inbox.all fun r => !Sample.isClosure r.envelope.body) = true := by decide +kernel
  rintro (⟨id, o, ho, -⟩ | ⟨u, hu, r, hr, -, c, hbody, -⟩)
  · have hmem := Std.TreeMap.mem_toList_iff_getElem?_eq_some.mpr ho
    rw [hoperations] at hmem
    exact absurd hmem List.not_mem_nil
  · have hnone := List.all_eq_true.mp (List.all_eq_true.mp hinbox u hu) r hr
    rw [hbody] at hnone
    exact Bool.noConfusion hnone

end BlindPass.Controller
