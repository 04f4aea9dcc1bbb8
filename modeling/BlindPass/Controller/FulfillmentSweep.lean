import BlindPass.Controller.ClockFence

/-!
# Sweeping fulfillments

A sweep closes the fulfillments that can no longer complete. It judges a row outside of the
transaction that closes it, so that a result of the recipient's broker may come in between. A row
past its deadline whose secret is on its way becomes uncertain, and the first result settles it.
-/

namespace BlindPass.Controller

open Execution
open Fleet (FulfillmentResult)

/-! ### Verdicts -/

/-- What `party_snapshot` reads of a workload and its node. -/
structure PartyRow where
  nodeId : String
  nodeActive : Bool
  keyVersion : ℕ
  workloadActive : Bool
  registrationVersion : ℕ
  deriving DecidableEq

/-- What a verdict depends on besides the row. -/
structure FleetView where
  policyVersion : ℕ
  party : String → Option PartyRow

/-- A status, a failure code and a reason to close with. -/
structure Closing where
  status : FulfillmentStatus
  code : Option String
  reason : String
  deriving DecidableEq

/-- The part of `sweep_verdict` about one of the parties. -/
def partyVerdict (party : Option PartyRow) (nodeId : String)
    (keyVersion registrationVersion : Option ℕ) : Option Closing :=
  match party with
  | none => some ⟨.failed, some "workload_changed", "failed"⟩
  | some party =>
    if party.nodeId ≠ nodeId ∨ !party.nodeActive then
      some ⟨.failed, some "node_revoked", "failed"⟩
    else if some party.keyVersion ≠ keyVersion then
      some ⟨.failed, some "node_key_rotated", "failed"⟩
    else if !party.workloadActive ∨ some party.registrationVersion ≠ registrationVersion then
      some ⟨.failed, some "workload_changed", "failed"⟩
    else none

/-- `sweep_verdict` -/
def sweepVerdict (view : FleetView) (now : ℕ) (enabled : Bool) (r : FulfillmentRecord) :
    Option Closing :=
  if !enabled then some ⟨.revoked, none, "feature_disabled"⟩
  else if r.expiresAtMs ≤ now then
    match r.status with
    | .available => some ⟨.uncertain, some "no_recipient_result", "expired"⟩
    | .recipientConsumed => some ⟨.expired, some "stored_not_consumed", "expired"⟩
    | .uncertain => none
    | _ => some ⟨.expired, none, "expired"⟩
  else if r.termsDigest.isNone ∨ r.status = .uncertain then none
  else if view.policyVersion ≠ r.policyVersion then
    some ⟨.failed, some "policy_changed", "policy"⟩
  else
    (partyVerdict (view.party r.issuerWorkloadId) r.issuerNodeId r.issuerKeyVersion
      r.issuerRegistrationVersion).or
    (partyVerdict (view.party r.recipientWorkloadId) r.recipientNodeId r.recipientKeyVersion
      r.recipientRegistrationVersion)

/-- The row that `close!` writes. -/
def FulfillmentRecord.close (r : FulfillmentRecord) (c : Closing) (now : ℕ) : FulfillmentRecord :=
  { r with
    status := c.status
    failureCode := c.code
    closedAtMs := if c.status = .uncertain then none else some now
    version := r.version + 1 }

/-- `close!`, from the active statuses. -/
def closeFulfillment (rows : Std.TreeMap String FulfillmentRecord) (id : String) (c : Closing)
    (now : ℕ) : Std.TreeMap String FulfillmentRecord :=
  match rows[id]? with
  | none => rows
  | some r => if r.status.isActive then rows.insert id (r.close c now) else rows

/-- What becomes of a row the sweep looks at. -/
def swept (view : FleetView) (now : ℕ) (enabled : Bool) (r : FulfillmentRecord) :
    FulfillmentRecord :=
  match sweepVerdict view now enabled r with
  | none => r
  | some c => if r.status.isActive then r.close c now else r

/-! ### Late results -/

/-- The row that `record_fulfillment_event` writes for a result its checks let through. -/
def FulfillmentRecord.applyResult (r : FulfillmentRecord) (result : FulfillmentResult) (now : ℕ) :
    FulfillmentRecord :=
  match result.side, result.state, r.status with
  | .recipient, .stored, .available =>
    { r with status := .recipientConsumed, failureCode := none, version := r.version + 1 }
  -- the deadline has passed, and the broker drops a credential that nobody read
  | .recipient, .stored, .uncertain =>
    { r with
      status := .expired
      failureCode := some "stored_not_consumed"
      closedAtMs := some now
      version := r.version + 1 }
  | .recipient, .consumed, .available | .recipient, .consumed, .recipientConsumed
  | .recipient, .consumed, .uncertain =>
    { r with
      status := .completed
      failureCode := none
      closedAtMs := some now
      version := r.version + 1 }
  | _, .failed, .approved | _, .failed, .offered | _, .failed, .available
  | _, .failed, .recipientConsumed | _, .failed, .uncertain =>
    r.close ⟨.failed, result.code, "failed"⟩ now
  | _, _, _ => r

/-- `record_fulfillment_event` for a result under a key that is not recorded yet. -/
def recordFulfillmentResult (r : FulfillmentRecord) (nodeId : String) (result : FulfillmentResult)
    (now : ℕ) : Except String FulfillmentRecord :=
  match r.termsDigest with
  | none => .error "fulfillment not authorized"
  | some digest =>
    let expectedNode := match result.side with
      | .issuer => r.issuerNodeId
      | .recipient => r.recipientNodeId
    if result.termsDigest ≠ digest then .error "fulfillment result terms"
    else if expectedNode ≠ nodeId then .error "fulfillment result node"
    else .ok (r.applyResult result now)

/-- What the recipient's broker reports: that it stored the secret, or that the secret was read. -/
structure RecipientReport where
  consumed : Bool
  observedAtMs : ℕ
  receivedAtMs : ℕ

/-- The result event of a report. -/
def RecipientReport.result (report : RecipientReport) (id digest : String) : FulfillmentResult :=
  ⟨id, digest, .recipient, if report.consumed then .consumed else .stored, none,
    report.observedAtMs⟩

/-- A call of `expire_fulfillments`, which may have the row in its batch. -/
structure SweepCall where
  view : FleetView
  now : ℕ
  enabled : Bool
  reaches : Bool

def SweepCall.apply (r : FulfillmentRecord) (call : SweepCall) : FulfillmentRecord :=
  if call.reaches then swept call.view call.now call.enabled r else r

section Late

variable {id digest nodeId : String} {r : FulfillmentRecord} {reports : List RecipientReport}

/-- The row after a report of the recipient's broker. -/
def FulfillmentRecord.report (id digest nodeId : String) (r : FulfillmentRecord)
    (report : RecipientReport) : FulfillmentRecord :=
  (recordFulfillmentResult r nodeId (report.result id digest) report.receivedAtMs).toOption.getD r

variable (hdigest : r.termsDigest = some digest) (hnode : r.recipientNodeId = nodeId)

include hdigest hnode

theorem report_eq (id : String) (report : RecipientReport) : r.report id digest nodeId report
      = r.applyResult (report.result id digest) report.receivedAtMs := by
  simp [FulfillmentRecord.report, recordFulfillmentResult, hdigest, RecipientReport.result, hnode,
    Except.toOption]

/-- A report names the row as before. -/
theorem report_kept (id : String) (report : RecipientReport) :
    (r.report id digest nodeId report).termsDigest = some digest ∧
      (r.report id digest nodeId report).recipientNodeId = nodeId := by
  rw [report_eq hdigest hnode id, FulfillmentRecord.applyResult]
  split <;> exact ⟨hdigest, hnode⟩

/-- A fulfillment that waits for its results completes with the news that the secret was read. -/
theorem status_reports_of_open
    (hstatus : r.status = .available ∨ r.status = .recipientConsumed ∨ r.status = .completed)
    (hconsumed : r.status = .completed ∨ ∃ report ∈ reports, report.consumed = true) :
    (reports.foldl (FulfillmentRecord.report id digest nodeId) r).status = .completed := by
  induction reports generalizing r with
  | nil => exact hconsumed.resolve_right (by simp)
  | cons report rest ih =>
    obtain ⟨hdigest', hnode'⟩ := report_kept hdigest hnode id report
    rw [List.foldl_cons]
    refine ih hdigest' hnode' ?_ ?_
    all_goals
      rw [report_eq hdigest hnode id, FulfillmentRecord.applyResult, RecipientReport.result]
      rcases hstatus with h | h | h <;> cases hreport : report.consumed <;> simp_all

theorem status_reports_of_closed (hopen : r.status ≠ .available)
    (hconsumed : r.status ≠ .recipientConsumed) (huncertain : r.status ≠ .uncertain) :
    (reports.foldl (FulfillmentRecord.report id digest nodeId) r).status = r.status := by
  induction reports with
  | nil => rfl
  | cons report rest ih =>
    have hsame : r.report id digest nodeId report = r := by
      rw [report_eq hdigest hnode id, FulfillmentRecord.applyResult, RecipientReport.result]
      cases report.consumed <;> cases hstatus : r.status <;> simp_all
    rw [List.foldl_cons, hsame]
    exact ih

/-- A sweep does not change what a fulfillment is about. -/
theorem calls_kept (calls : List SweepCall) :
    (calls.foldl SweepCall.apply r).termsDigest = some digest ∧
      (calls.foldl SweepCall.apply r).recipientNodeId = nodeId := by
  induction calls generalizing r with
  | nil => exact ⟨hdigest, hnode⟩
  | cons call calls ih =>
    have hkept : (SweepCall.apply r call).termsDigest = r.termsDigest ∧
        (SweepCall.apply r call).recipientNodeId = r.recipientNodeId := by
      unfold SweepCall.apply swept
      split
      · split <;> (try split) <;> exact ⟨rfl, rfl⟩
      · exact ⟨rfl, rfl⟩
    exact ih (hkept.1.trans hdigest) (hkept.2.trans hnode)

/-- A row on which results come in, one of them that the secret was read. -/
theorem status_reports_iff {first : RecipientReport} {rest : List RecipientReport}
    (hconsumed : ∃ report ∈ first :: rest, report.consumed = true) :
    ((first :: rest).foldl (FulfillmentRecord.report id digest nodeId) r).status = .completed ↔
      r.status = .available ∨ r.status = .recipientConsumed ∨ r.status = .completed ∨
      r.status = .uncertain ∧ first.consumed = true := by
  obtain ⟨hdigest', hnode'⟩ := report_kept hdigest hnode id first
  have hfirst := report_eq hdigest hnode id first
  rw [FulfillmentRecord.applyResult, RecipientReport.result] at hfirst
  cases hstatus : r.status with
  | available | recipientConsumed | completed =>
    exact iff_of_true (status_reports_of_open hdigest hnode (by simp [hstatus]) (.inr hconsumed))
      (by simp)
  | uncertain =>
    -- the first result settles the row
    cases hread : first.consumed with
    | true =>
      have hdone : (r.report id digest nodeId first).status = .completed := by
        simp [hfirst, hread, hstatus]
      rw [List.foldl_cons]
      exact iff_of_true (status_reports_of_open hdigest' hnode' (.inr (.inr hdone)) (.inl hdone))
        (by simp)
    | false =>
      have hdone : (r.report id digest nodeId first).status = .expired := by
        simp [hfirst, hread, hstatus]
      rw [List.foldl_cons, status_reports_of_closed hdigest' hnode' (by simp [hdone])
        (by simp [hdone]) (by simp [hdone]), hdone]
      simp
  | _ =>
    rw [status_reports_of_closed hdigest hnode (by simp [hstatus]) (by simp [hstatus])
      (by simp [hstatus])]
    simp [hstatus]

/-- With sweeps before the first result, and the news among the results that the secret was read, a
fulfillment ends completed exactly if it still waits for results when the first one comes, or is
uncertain and the first one says that the secret was read. -/
theorem late_results_iff (calls : List SweepCall) {first : RecipientReport}
    {rest : List RecipientReport} (hconsumed : ∃ report ∈ first :: rest, report.consumed = true) :
    ((first :: rest).foldl (FulfillmentRecord.report id digest nodeId)
        (calls.foldl SweepCall.apply r)).status = .completed ↔
      (calls.foldl SweepCall.apply r).status = .available ∨
      (calls.foldl SweepCall.apply r).status = .recipientConsumed ∨
      (calls.foldl SweepCall.apply r).status = .completed ∨
      (calls.foldl SweepCall.apply r).status = .uncertain ∧ first.consumed = true :=
  status_reports_iff (calls_kept hdigest hnode calls).1 (calls_kept hdigest hnode calls).2 hconsumed

end Late

/-! ### Interleaved sweeps -/

/-- The database, and where the sweep is: its time and switch, and the row it has read with the
verdict on it. -/
structure SweepState where
  rows : Std.TreeMap String FulfillmentRecord
  view : FleetView
  now : ℕ
  enabled : Bool
  judged : Option (String × FulfillmentRecord × Closing)

/-- The sweep's transactions and reads, and those of the others. -/
inductive SweepEvent
  | start (now : ℕ) (enabled : Bool)
  | judge (id : String)
  | close
  /-- Any transaction of `record_fulfillment_event`, `decide_fulfillment`, `revoke_fulfillment` or
  another writer. -/
  | other (rows : Std.TreeMap String FulfillmentRecord) (view : FleetView)

/-- The row that `close!` finds, if it is still active. -/
def SweepState.closed (s : SweepState) : Option (FulfillmentRecord × Closing) :=
  s.judged.bind fun (id, _, c) =>
    (s.rows[id]?.filter fun r => r.status.isActive).map fun r => (r, c)

/-- A step of `expire_fulfillments` or of another writer. A closing answers with the row as its
transaction finds it and with what it writes. -/
def SweepState.step (s : SweepState) : SweepEvent →
    SweepState × Option (FulfillmentRecord × Closing)
  | .start now enabled => ({ s with now := now, enabled := enabled, judged := none }, none)
  | .judge id =>
    ({ s with
      judged := s.rows[id]?.bind fun r =>
        (sweepVerdict s.view s.now s.enabled r).map fun c => (id, r, c) }, none)
  | .close =>
    match s.judged with
    | none => (s, none)
    | some (id, _, c) =>
      ({ s with rows := closeFulfillment s.rows id c s.now, judged := none }, s.closed)
  | .other rows view => ({ s with rows := rows, view := view }, none)

/-- Sweeps beside other writers. -/
def sweepMachine : Machine SweepState SweepEvent (Option (FulfillmentRecord × Closing)) where
  Start s := s.judged = none
  Admits _ _ := True
  step := SweepState.step

/-- Another writer leaves the row that the sweep has judged, and what the verdict depends on. -/
def SweepState.Spares (s : SweepState) : SweepEvent → Prop
  | .other rows view => ∀ id r c, s.judged = some (id, r, c) →
      rows[id]? = s.rows[id]? ∧ view = s.view
  | _ => True

/-- The judged row is as it was read. -/
def SweepState.Fresh (s : SweepState) : Prop :=
  ∀ id r c, s.judged = some (id, r, c) →
    s.rows[id]? = some r ∧ sweepVerdict s.view s.now s.enabled r = some c

theorem SweepState.fresh_step {s : SweepState} (h : s.Fresh) {e : SweepEvent} (he : s.Spares e) :
    (s.step e).1.Fresh := by
  cases e with
  | start => intro id r c hjudged; cases hjudged
  | judge =>
    intro id' r c hjudged
    obtain ⟨r', hr', hc⟩ := Option.bind_eq_some_iff.mp hjudged
    obtain ⟨c', hc', heq⟩ := Option.map_eq_some_iff.mp hc
    cases heq
    exact ⟨hr', hc'⟩
  | close =>
    simp only [SweepState.step]
    split
    · exact h
    · intro id r c hjudged
      cases hjudged
  | other =>
    intro id r c hjudged
    obtain ⟨hrow, rfl⟩ := he id r c hjudged
    exact ⟨hrow.trans (h id r c hjudged).1, (h id r c hjudged).2⟩

/-- If no other writer touches a row between its verdict and its closing, each closing writes the
verdict on the row that its transaction finds. -/
theorem closing_eq_verdict {run : List (Transition SweepState SweepEvent _)} {s : SweepState}
    (h : sweepMachine.Run run s) (hspares : ∀ t ∈ run, t.before.Spares t.event)
    {t : Transition SweepState SweepEvent _} (ht : t ∈ run) {r : FulfillmentRecord} {c : Closing}
    (hclosing : t.output = some (r, c)) :
    sweepVerdict t.before.view t.before.now t.before.enabled r = some c := by
  obtain ⟨before, after, rfl⟩ := List.append_of_mem ht
  obtain ⟨hr, -, heq⟩ := h.split
  have hfresh : t.before.Fresh := by
    refine hr.invariant_of (Q := fun t => t.before.Spares t.event) ?_ ?_ fun t ht =>
      hspares t (List.mem_append_left _ ht)
    · intro s hs id r c hjudged
      cases hs.symm.trans hjudged
    · intro s e hs _ he
      exact SweepState.fresh_step hs he
  have hoffered : t.before.closed = some (r, c) := by
    rw [heq] at hclosing
    change (t.before.step t.event).2 = _ at hclosing
    unfold SweepState.step at hclosing
    split at hclosing <;> (try split at hclosing) <;> first | exact hclosing | cases hclosing
  obtain ⟨⟨id, r', c'⟩, hjudged, hoffered⟩ := Option.bind_eq_some_iff.mp hoffered
  obtain ⟨found, hfound, heq⟩ := Option.map_eq_some_iff.mp hoffered
  cases heq
  obtain ⟨hrow, hverdict⟩ := hfresh id r' _ hjudged
  obtain rfl : r' = r := Option.some.inj (hrow.symm.trans (Option.filter_eq_some_iff.mp hfound).1)
  exact hverdict

/-! ### Sample rows -/

namespace Sample

/-- A fulfillment whose deadline is at 100. -/
def dueRow (status : FulfillmentStatus) : FulfillmentRecord :=
  { sampleFulfillment status with expiresAtMs := 100, termsDigest := some "d-1" }

def emptyFleet : FleetView := ⟨1, fun _ => none⟩

/-- The recipient's broker stores the secret and hands it out; its reports come after a sweep, the
stored one first. -/
theorem late_results_lost :
    ([⟨false, 90, 110⟩, ⟨true, 95, 111⟩].foldl (FulfillmentRecord.report "f-1" "d-1" "node-2")
      ([⟨emptyFleet, 100, true, true⟩].foldl SweepCall.apply (dueRow .available))).status
        = .expired := by
  decide

theorem late_results_in_order : (([⟨true, 95, 111⟩, ⟨false, 90, 112⟩] : List RecipientReport).foldl
      (FulfillmentRecord.report "f-1" "d-1" "node-2")
      ([⟨emptyFleet, 100, true, true⟩].foldl SweepCall.apply (dueRow .available))).status
        = .completed :=
  (late_results_iff (r := dueRow .available) rfl rfl _ (by decide)).mpr (by decide)

def dueState : SweepState :=
  ⟨({} : Std.TreeMap String FulfillmentRecord).insert "f-1" (dueRow .available), emptyFleet, 0,
    true, none⟩

/-- A sweep judges an available row, another transaction works, and the sweep closes. -/
def sweepRun (rows : Std.TreeMap String FulfillmentRecord) :=
  sweepMachine.play dueState [.start 100 true, .judge "f-1", .other rows emptyFleet, .close]

theorem run_sweepRun (rows : Std.TreeMap String FulfillmentRecord) :
    sweepMachine.Run (sweepRun rows).1 (sweepRun rows).2 :=
  Machine.run_play rfl ⟨trivial, trivial, trivial, trivial, trivial⟩

/-- The stored result commits between the verdict and the closing: the row is closed as one without
a result of the recipient. -/
theorem stale_verdict : ∃ run s, sweepMachine.Run run s ∧ ∃ t ∈ run,
      t.output = some (dueRow .recipientConsumed,
        ⟨.uncertain, some "no_recipient_result", "expired"⟩) ∧
      sweepVerdict t.before.view t.before.now t.before.enabled (dueRow .recipientConsumed) =
        some ⟨.expired, some "stored_not_consumed", "expired"⟩ :=
  ⟨_, _, run_sweepRun (dueState.rows.insert "f-1" (dueRow .recipientConsumed)), _,
    .tail _ (.tail _ (.tail _ (.head _))), by decide +kernel, by decide +kernel⟩

theorem closing_eq_verdict_undisturbed : ∃ t ∈ (sweepRun dueState.rows).1,
    sweepVerdict t.before.view t.before.now t.before.enabled (dueRow .available) =
      some ⟨.uncertain, some "no_recipient_result", "expired"⟩ := by
  refine ⟨_, .tail _ (.tail _ (.tail _ (.head _))), closing_eq_verdict (run_sweepRun _) ?_
    (.tail _ (.tail _ (.tail _ (.head _)))) (by decide +kernel)⟩
  rintro t (_ | ⟨_, _ | ⟨_, _ | ⟨_, _ | ⟨_, ht⟩⟩⟩⟩)
  · trivial
  · trivial
  · exact fun _ _ _ _ => ⟨rfl, rfl⟩
  · trivial
  · cases ht

end Sample

end BlindPass.Controller
