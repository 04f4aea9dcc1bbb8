import BlindPass.Broker.OneUse
import BlindPass.Broker.WellKept

/-!
# What a denied consumption leaves behind

The broker announces an uncertain result before it consumes a grant, and withdraws it when the
consumption is denied, because nothing was recorded then. This holds for a denial that comes
before the journal is written. A denial that comes afterwards has burned the grant: the line was
flushed, or could not be taken back, and the call still failed.
-/

namespace BlindPass.Broker

open Storage (Slot)
open Fleet (Grant)
open GrantJournal (Tracks readLocked)

namespace SharedJournal

variable {L : Ledger} {slot slot' : Slot JournalLine} {j : GrantJournal} {id : String}

/-- A path that holds a ledger can be opened. -/
theorem readLocked_clean (hL : L.HeldBy slot) (hfits : Fits slot) :
    ∃ slot' j, readLocked slot .clean = (slot', .ok j) := by
  have haccepts : ∀ f ∈ slot.file?, (!GrantJournal.historyMisplaced f.lines) = true := by
    intro f hf
    have hlines := hL
    rw [Ledger.HeldBy, Option.mem_def.mp hf, Option.getD_some] at hlines
    simp [hlines, Ledger.historyMisplaced_lines]
  have hread := Slot.read_clean hfits (fun lines => !GrantJournal.historyMisplaced lines) haccepts
  rcases hresult : slot.read JournalLine.size grantJournalMaxBytes
    (fun lines => !GrantJournal.historyMisplaced lines) .clean with ⟨slot', result⟩
  rw [hresult] at hread
  subst hread
  cases hf : slot.file? with
  | none => exact ⟨slot', .empty, by simp [readLocked, GrantJournal.ReadIo.clean, hresult, hf]⟩
  | some =>
    obtain ⟨j, hlines, hagrees, -⟩ := L.readLines_lines
    have hfile := hL
    rw [Ledger.HeldBy, hf, Option.getD_some] at hfile
    -- the remaining checks of `read_locked` are facts of a ledger
    obtain ⟨hbounded, hbound⟩ := Ledger.accepted hagrees
    refine ⟨slot', { j with revision := some slot'.stamp }, ?_⟩
    simp [readLocked, GrantJournal.ReadIo.clean, hresult, hf, hfile, hlines, hbounded, hbound]

/-- What a reader of a path that holds `L` finds. -/
theorem readLocked_contains_iff (hL : L.HeldBy slot) (hfits : Fits slot) :
    (∀ slot' j, readLocked slot .clean = (slot', .ok j) → j.consumed.contains id = false) ↔
      id ∉ L.records.map Consumption.grantId := by
  constructor
  · intro h
    obtain ⟨slot', j, hread⟩ := readLocked_clean hL hfits
    exact (hL.agrees hread).contains_eq_false.mp (h slot' j hread)
  · intro h slot' j hread
    exact (hL.agrees hread).contains_eq_false.mpr h

theorem fits_of_run {run : List WriterTransition} {s : SharedJournal} (h : writers.Run run s) :
    Fits s.slot := by
  apply h.invariant (P := fun s => Fits s.slot)
  · rintro s ⟨hslot, -⟩
    rw [hslot]
    intro f hf
    cases hf
  · intro s e hs he
    exact fits_step hs he

end SharedJournal

namespace GrantVerifier

/-- Neither the journal in memory nor the file, read by `GrantJournal::open`, has the grant. -/
def Unburned (v : GrantVerifier) (files : StateFiles) (grantId : String) : Prop :=
  v.journal.consumed.contains grantId = false ∧
    ∀ slot j, readLocked files.journal .clean = (slot, .ok j) → j.consumed.contains grantId = false

/-- The record of a grant's consumption. -/
def consumptionOf (grant : Grant) : Consumption :=
  ⟨grant.id, grant.expiresAtMs, some ⟨grant.operationId, grant.issuerEpoch⟩⟩

/-- The consumption passes every check before the journal. -/
def reachesJournal (v : GrantVerifier) (grant : Grant) (authorization : WorkloadAuthorization)
    (currentPolicyVersion nowBoottimeMs : ℕ) : Bool :=
  (v.validateConsumption grant.id authorization currentPolicyVersion nowBoottimeMs).isOk &&
    Fleet.isValidOpaqueId grant.operationId &&
    (1 ≤ grant.issuerEpoch && grant.issuerEpoch ≤ Fleet.maxSafeInteger)

/-- The consumption gets to see the file. -/
def reachesFile (v : GrantVerifier) (files : StateFiles) (grant : Grant)
    (authorization : WorkloadAuthorization) (currentPolicyVersion nowBoottimeMs : ℕ)
    (io : GrantJournal.RecordIo) : Bool :=
  v.reachesJournal grant authorization currentPolicyVersion nowBoottimeMs &&
    v.journal.reachesFile files.journal io

/-- The consumption fails after its line is in the file. -/
def burns (v : GrantVerifier) (files : StateFiles) (grant : Grant)
    (authorization : WorkloadAuthorization) (currentPolicyVersion nowBoottimeMs : ℕ)
    (io : GrantJournal.RecordIo) : Bool :=
  v.reachesJournal grant authorization currentPolicyVersion nowBoottimeMs &&
    v.journal.leavesUnreported files.journal (consumptionOf grant) (some grant.nodeId) io

variable {v v' : GrantVerifier} {files files' : StateFiles} {grant : Grant}
  {authorization : WorkloadAuthorization} {policyVersion now deadline : ℕ} {hash : String}
  {io : GrantJournal.RecordIo} {denial : ConsumeDenial} {L : Ledger}

/-- The denial of an accepted grant: before the journal, or by it. -/
theorem consume_denied (haccepted : v.accepted[grant.id]? = some ⟨grant, deadline, hash⟩)
    (h : v.consume files grant.id authorization policyVersion now io =
      (v', files', .error denial)) :
    (v.reachesJournal grant authorization policyVersion now = false ∧
        v'.journal = v.journal ∧ files'.journal = files.journal) ∨
      (v.reachesJournal grant authorization policyVersion now = true ∧
        ∃ err, v.journal.record files.journal grant.id grant.expiresAtMs
          (some ⟨grant.operationId, grant.issuerEpoch⟩) (some grant.nodeId) io =
            (v'.journal, files'.journal, .error err)) := by
  unfold consume at h
  unfold reachesJournal
  cases hvalid : v.validateConsumption grant.id authorization policyVersion now with
  | error =>
    rw [hvalid] at h
    cases h
    exact .inl ⟨rfl, rfl, rfl⟩
  | ok a =>
    -- the grant that is validated is the one that was accepted
    obtain rfl : a = ⟨grant, deadline, hash⟩ := by
      unfold validateConsumption at hvalid
      rw [haccepted] at hvalid
      dsimp only at hvalid
      split_ifs at hvalid
      exact (Except.ok.inj hvalid).symm
    rw [hvalid] at h
    dsimp only at h
    rcases hrecord : v.journal.recordBoundConsumption files.journal grant io
      with ⟨journal, slot, result⟩
    rw [hrecord] at h
    unfold GrantJournal.recordBoundConsumption at hrecord
    cases result with
    | ok =>
      rw [haccepted] at h
      cases h
    | error err =>
      cases h
      split at hrecord
      · rename_i hinvalid
        cases hrecord
        refine .inl ⟨?_, rfl, rfl⟩
        simp only [Bool.or_eq_true, Bool.not_eq_true'] at hinvalid
        rcases hinvalid with hinvalid | hinvalid <;>
          simp [Except.isOk, Except.toBool, hinvalid]
      · rename_i hvalues
        refine .inr ⟨?_, err, hrecord⟩
        simp only [Bool.or_eq_true, Bool.not_eq_true', not_or, Bool.not_eq_false] at hvalues
        simp [Except.isOk, Except.toBool, hvalues.1, hvalues.2]

/-- Before the journal is written, what a denial leaves is what was there. -/
theorem unburned_iff (hL : L.HeldBy files.journal) (hfits : SharedJournal.Fits files.journal)
    (id : String) : Unburned v files id ↔
      v.journal.consumed.contains id = false ∧ id ∉ L.records.map Consumption.grantId := by
  rw [Unburned, SharedJournal.readLocked_contains_iff hL hfits]

/-- Exactly when a denial of an accepted grant has burned nothing, over a file that holds `L`. -/
theorem unburned_denied_iff (hL : L.HeldBy files.journal)
    (hfits : SharedJournal.Fits files.journal) (htracks : Tracks v.journal files.journal L)
    (haccepted : v.accepted[grant.id]? = some ⟨grant, deadline, hash⟩)
    (hexpires : grant.expiresAtMs < 2 ^ 64)
    (h : v.consume files grant.id authorization policyVersion now io =
      (v', files', .error denial)) : Unburned v' files' grant.id ↔
      grant.id ∉ L.records.map Consumption.grantId ∧ (v.journal.consumed.contains grant.id = false ∨
          v.reachesFile files grant authorization policyVersion now io = true) ∧
        v.burns files grant authorization policyVersion now io = false := by
  obtain ⟨hreaches, hjournal, hfile⟩ | ⟨hreaches, err, hrecord⟩ := consume_denied haccepted h
  · -- denied before the journal: nothing changed
    rw [unburned_iff (hfile ▸ hL) (hfile ▸ hfits), hjournal]
    simp [reachesFile, burns, hreaches, and_comm]
  have hbinding : ∀ b ∈ (consumptionOf grant).binding, Fleet.isValidOpaqueId b.operationId ∧
      1 ≤ b.issuerEpoch ∧ b.issuerEpoch ≤ Fleet.maxSafeInteger := by
    rintro _ ⟨⟩
    simp only [reachesJournal, Bool.and_eq_true, decide_eq_true_eq] at hreaches
    exact ⟨hreaches.1.2, hreaches.2⟩
  obtain ⟨-, L', hlater, htracks', hcases⟩ :=
    GrantJournal.record_spec hL htracks (r := consumptionOf grant) hexpires hbinding hrecord
  have hfits' : SharedJournal.Fits files'.journal :=
    SharedJournal.fits_record (r := consumptionOf grant) hfits hrecord
  rw [unburned_iff hlater.held hfits']
  rcases hcases with ⟨rfl, -, hunburned, hread, hunread⟩ | ⟨hrecords, -, -, hburned⟩
  · -- nothing was written: the journal in memory is up to date or the old one
    simp only [burns, hreaches, hunburned, Bool.and_false, and_true]
    cases hreachesFile : v.journal.reachesFile files.journal io with
    | true =>
      have hagrees := hread hreachesFile
      simp [reachesFile, hreaches, hreachesFile, hagrees.contains_eq_false]
    | false =>
      simp [reachesFile, hreachesFile, hunread hreachesFile, and_comm]
  · -- the line is in the file
    have hburns : v.burns files grant authorization policyVersion now io = true := by
      rcases hburned with hok | hburned
      · cases hok
      · simp [burns, hreaches, hburned]
    have hin : grant.id ∈ L'.records.map Consumption.grantId := by
      rw [hrecords, List.map_append]
      exact List.mem_append_right _ (.head _)
    simp [hburns, hin]

end GrantVerifier

variable {run : List WriterTransition} {s : SharedJournal} {process : ℕ} {v v' : GrantVerifier}
  {files files' : StateFiles} {grant : Grant} {authorization : WorkloadAuthorization}
  {policyVersion now deadline : ℕ} {hash : String} {io : GrantJournal.RecordIo}
  {denial : ConsumeDenial}

/-- In every state that the writers of a journal reach, a denied consumption of an accepted grant
has burned nothing if and only if the grant was not recorded before and the call did not fail
after its line was in the file. -/
theorem denied_unburned_iff (hrun : writers.Run run s)
    (hjournal : s.writer process = some v.journal) (hfile : files.journal = s.slot)
    (haccepted : v.accepted[grant.id]? = some ⟨grant, deadline, hash⟩)
    (hexpires : grant.expiresAtMs < 2 ^ 64)
    (hdenied : v.consume files grant.id authorization policyVersion now io =
      (v', files', .error denial)) : v'.Unburned files' grant.id ↔
      (∀ expiry, ¬ s.Durable grant.id expiry) ∧ (v.journal.consumed.contains grant.id = false ∨
          v.reachesFile files grant authorization policyVersion now io = true) ∧
        v.burns files grant authorization policyVersion now io = false := by
  obtain ⟨L, hL⟩ := exists_inv hrun
  have hfits := SharedJournal.fits_of_run hrun
  have hdurable : grant.id ∉ L.records.map Consumption.grantId ↔
      ∀ expiry, ¬ s.Durable grant.id expiry := by
    simp only [hL.durable_iff, Ledger.view, List.mem_map, not_exists, not_and]
    constructor
    · intro hnone expiry r hr hid _
      exact hnone r hr hid
    · intro hnone r hr hid
      exact hnone r.expiresAtMs r hr hid rfl
  rw [← hdurable]
  rw [← hfile] at hfits
  have hheld := hL.held
  have htracks := hL.tracks process v.journal hjournal
  rw [← hfile] at hheld htracks
  exact GrantVerifier.unburned_denied_iff hheld hfits htracks haccepted hexpires hdenied

namespace Sample

/-- A verifier that has accepted `gr_1`, over an empty journal. -/
def acceptedVerifier : GrantVerifier where
  pendingTime := none
  trustedTime := none
  highestControllerTimeMs := none
  accepted := Std.TreeMap.insert (∅ : Std.TreeMap String AcceptedGrant) "gr_1"
    ⟨Sample.grant "gr_1", 60000, "hash"⟩
  issuerEpoch := some 1
  retired := .new maxRetiredGrants
  journal := .empty
  revocations := .empty

/-- The workload of `gr_1`. -/
def consumer : WorkloadAuthorization := ⟨"node_1", "wl_1", "app.service", "inv_1", "consume:gr_1"⟩

/-- The consumption of `gr_1`. -/
def consumed (io : GrantJournal.RecordIo) :
    GrantVerifier × StateFiles × Except ConsumeDenial Grant :=
  acceptedVerifier.consume host.files "gr_1" consumer 1 5000 io

/-- The journal is busy. -/
def busy : GrantJournal.RecordIo := { GrantJournal.RecordIo.clean with lock := false }

theorem run_opened : writers.Run (writers.play noJournal [.open 0 true .clean]).1
    (writers.play noJournal [.open 0 true .clean]).2 := by
  apply Execution.Machine.run_play start_noJournal
  apply admitsAll_of_isCall
  simp [WriterEvent.IsCall]

end Sample

theorem denied_unburned_iff_busy : (Sample.consumed Sample.busy).2.2 = .error .unavailable ∧
      (Sample.consumed Sample.busy).1.Unburned (Sample.consumed Sample.busy).2.1 "gr_1" := by
  have hdenied : (Sample.consumed Sample.busy).2.2 = .error .unavailable := by decide +kernel
  refine ⟨hdenied, ?_⟩
  have hcall : Sample.acceptedVerifier.consume Sample.host.files (Sample.grant "gr_1").id
      Sample.consumer 1 5000 Sample.busy = ((Sample.consumed Sample.busy).1,
        (Sample.consumed Sample.busy).2.1, .error .unavailable) :=
    Prod.ext rfl (Prod.ext rfl hdenied)
  have haccepted : Sample.acceptedVerifier.accepted[(Sample.grant "gr_1").id]? =
      some ⟨Sample.grant "gr_1", 60000, "hash"⟩ := by decide +kernel
  have hopened : (writers.play noJournal [.open 0 true .clean]).2.writer 0 =
      some Sample.acceptedVerifier.journal := rfl
  refine (denied_unburned_iff Sample.run_opened hopened rfl haccepted (by decide)
    hcall).mpr ⟨?_, .inl (by decide +kernel), by decide +kernel⟩
  rintro expiry ⟨binding, hmem⟩
  exact absurd hmem List.not_mem_nil

/-- The directory of the new journal cannot be synchronised: the consumption is denied, and the
grant is in the journal and in the file. -/
theorem denied_burned : (Sample.consumed Sample.unsyncedDirectory).2.2 = .error .unavailable ∧
      (Sample.consumed Sample.unsyncedDirectory).1.journal.consumed.contains "gr_1" = true ∧
      ¬ (Sample.consumed Sample.unsyncedDirectory).1.Unburned
        (Sample.consumed Sample.unsyncedDirectory).2.1 "gr_1" := by
  have hburned : (Sample.consumed Sample.unsyncedDirectory).1.journal.consumed.contains "gr_1" =
      true := by decide +kernel
  refine ⟨by decide +kernel, hburned, fun h => ?_⟩
  have hnot := h.1
  rw [hburned] at hnot
  cases hnot

/-- In every run, whatever fails, the journal can be opened, and a reader finds just the
consumptions in the file. -/
theorem journal_reopens (hrun : writers.Run run s) :
    ∃ slot j, readLocked s.slot .clean = (slot, .ok j) ∧
      ∀ id e, j.consumed[id]? = some e ↔ s.Durable id e := by
  obtain ⟨L, hL⟩ := exists_inv hrun
  obtain ⟨slot, j, hread⟩ :=
    SharedJournal.readLocked_clean hL.held (SharedJournal.fits_of_run hrun)
  refine ⟨slot, j, hread, fun id e => ?_⟩
  rw [hL.durable_iff, (hL.held.agrees hread).getElem?_eq_some L.nodup]
  rfl

theorem journal_reopens_shared :
    ∃ slot j, readLocked (writers.play noJournal sharedEvents).2.slot .clean = (slot, .ok j) :=
  (journal_reopens (Execution.Machine.run_play start_noJournal
    (admitsAll_of_isCall isCall_sharedEvents))).imp fun _ h => h.imp fun _ h => h.1

end BlindPass.Broker
