import BlindPass.Broker.Clock

/-!
# One use of a grant across restarts and power losses

A consumption is recorded before the grant is released, the record is read back at every
start, and pruning keeps it until a day after the grant's expiry, when the bound on the
controller's clock no longer lets the grant in. This holds whatever system calls fail, for
every restart of the process.

A power loss can also take the directory entry of a journal whose directory was never
synchronised. Only the append that creates the file synchronises it: when that
synchronisation fails, the next consumption is acknowledged although its file may vanish.
-/

namespace BlindPass.Broker

open Fleet (Grant TimeReply)
open GrantJournal (Mentions Remembers)
open Storage (Slot)

namespace GrantVerifier

variable {v v' : GrantVerifier} {files files' : StateFiles} {now expiry : ℕ} {e : Event}
  {id : String}

/-! ### What the calls do to a record -/

variable {r : Except String Unit}

/-- A time reply forgets a record only if the signed time is a day past the grant's expiry. -/
theorem remembers_acceptTimeReply {reply : TimeReply} {nodeId : String} {epoch : ℕ}
    {io : TimeReplyIo} (hcall : v.acceptTimeReply files reply nodeId epoch now io = (v', files', r))
    (hr : Remembers v.journal files.journal id expiry) :
    (Remembers v'.journal files'.journal id expiry ∧
        Slot.Preserves (Mentions id expiry) files.journal files'.journal) ∨
      ∃ c, v.pendingTime = some c ∧ reply.challenge = c.value ∧
        GrantJournal.isRetained reply.controllerTimeMs expiry = false := by
  obtain ⟨rfl, rfl⟩ | ⟨c, hc, ⟨rfl, rfl⟩ | ⟨estimate, highest, v₁, r₁, hest, hsettle, hv⟩⟩ :=
    acceptTimeReply_cases hcall
  · exact .inl ⟨hr, .refl _ _⟩
  · exact .inl ⟨hr, .refl _ _⟩
  cases hretained : GrantJournal.isRetained reply.controllerTimeMs expiry with
  | false => exact .inr ⟨c, hc, (timeEstimate_ok hest).1, rfl⟩
  | true =>
    have hsettled : Remembers v₁.journal files'.journal id expiry ∧
        Slot.Preserves (Mentions id expiry) files.journal files'.journal := by
      obtain ⟨rfl, hfiles⟩ | ⟨journal, slot, result, revocations, hprune, hslot, rfl, -⟩ :=
        settleJournals_cases hsettle
      · rw [hfiles]
        exact ⟨hr, .refl _ _⟩
      · rw [hslot]
        exact GrantJournal.prune_remembers hr hretained hprune
    left
    rcases hv with rfl | rfl
    · exact hsettled
    refine ⟨?_, hsettled.2⟩
    rw [show (v₁.withTrustedTime reply highest estimate now).journal = v₁.journal from
      frame_dropWhere.journal]
    exact hsettled.1

theorem remembers_recordBoundConsumption {j j' : GrantJournal} {slot slot' : Slot JournalLine}
    {grant : Grant} {io : GrantJournal.RecordIo}
    (h : j.recordBoundConsumption slot grant io = (j', slot', r))
    (hr : Remembers j slot id expiry) :
    Remembers j' slot' id expiry ∧ Slot.Preserves (Mentions id expiry) slot slot' := by
  unfold GrantJournal.recordBoundConsumption at h
  split at h
  · cases h
    exact ⟨hr, .refl _ _⟩
  · exact ⟨GrantJournal.remembers_record hr h,
      GrantJournal.record_preserves (GrantJournal.mentions_appendStable id expiry) h⟩

/-- No call forgets a record, except a time reply a day past the grant's expiry. -/
theorem remembers_call (hr : Remembers v.journal files.journal id expiry) :
    (Remembers (v.call files now e).1.journal (v.call files now e).2.1.journal id expiry ∧
        Slot.Preserves (Mentions id expiry) files.journal (v.call files now e).2.1.journal) ∨
      ∃ reply nodeId epoch io c, e = .acceptTimeReply reply nodeId epoch io ∧
        v.pendingTime = some c ∧ reply.challenge = c.value ∧
        GrantJournal.isRetained reply.controllerTimeMs expiry = false := by
  by_cases hreply : ∃ reply nodeId epoch io, e = .acceptTimeReply reply nodeId epoch io
  · obtain ⟨reply, nodeId, epoch, io, rfl⟩ := hreply
    rcases hcall : v.acceptTimeReply files reply nodeId epoch now io with ⟨v', files', r⟩
    simp only [call, hcall]
    rcases remembers_acceptTimeReply hcall hr with hkept | ⟨c, hc, hanswers, hold⟩
    · exact .inl hkept
    · exact .inr ⟨reply, nodeId, epoch, io, c, rfl, hc, hanswers, hold⟩
  push Not at hreply
  refine .inl ?_
  cases hchallenge : e.isChallenge with
  | true =>
    cases e with
    | beginTimeChallenge => exact ⟨hr, .refl _ _⟩
    | _ => cases hchallenge
  | false =>
    obtain ⟨-, -, -, -, ⟨hjournal, hslot⟩ | ⟨grant, io, r, hrec⟩⟩ :=
      @times_call v files now e hchallenge hreply
    · rw [hjournal, hslot]
      exact ⟨hr, .refl _ _⟩
    · exact remembers_recordBoundConsumption hrec hr

/-- A start over files that all mention a consumption leaves them so, and reads it. -/
theorem remembers_withStateFiles {io : OpenIo} {r : Except String GrantVerifier}
    (h : withStateFiles files io = (files', r)) (hdisk : files.journal.KeptNamed (Mentions id expiry)) :
    Slot.Preserves (Mentions id expiry) files.journal files'.journal ∧
      ∀ v, r = .ok v → v.journal.consumed[id]? = some expiry := by
  obtain ⟨rfl, hno⟩ | ⟨slot, journal, hread, hslot, hok⟩ := withStateFiles_cases h
  · exact ⟨.refl _ _, fun v hv => absurd hv (hno v)⟩
  have hpreserves := GrantJournal.readLocked_preserves (Mentions id expiry) files.journal io.journal
  rw [hread] at hpreserves
  refine ⟨hslot ▸ hpreserves, fun v hv => ?_⟩
  obtain ⟨j, highest, revocations, rfl, rfl⟩ := hok v hv
  exact GrantJournal.consumed_readLocked hread hdisk

end GrantVerifier

/-! ### Spent grants -/

variable {a : AcceptedGrant}

namespace Host

variable {h : Host} {v v' : GrantVerifier} {e : Event} {g : Grant} {settled : Prop}

/-- The consumption is on record: in the memory of a running verifier, in every file the
journal's entry may lead to, and, if `settled`, in every file a power loss may leave. -/
structure Recorded (h : Host) (g : Grant) (settled : Prop) : Prop where
  memory : ∀ v, h.verifier = some v → v.journal.consumed[g.id]? = some g.expiresAtMs
  named : h.files.journal.KeptNamed (Mentions g.id g.expiresAtMs)
  kept : settled → h.files.journal.Kept (Mentions g.id g.expiresAtMs)

/-- A consumed grant is no longer accepted, and will not be: its consumption is on record, or
the controller's clock is a day past its expiry. -/
structure Spent (h : Host) (g : Grant) (settled : Prop) : Prop where
  unaccepted : ∀ v, h.verifier = some v → v.accepted[g.id]? = none
  recorded : g.expiresAtMs + grantReplayRetentionMs ≤ h.controllerClock ∨ h.Recorded g settled

variable {settled' : Prop}

theorem Recorded.mono (hr : h.Recorded g settled) (himp : settled' → settled) :
    h.Recorded g settled' :=
  ⟨hr.memory, hr.named, fun hs => hr.kept (himp hs)⟩

theorem Spent.mono (hs : h.Spent g settled) (himp : settled' → settled) : h.Spent g settled' :=
  ⟨hs.unaccepted, hs.recorded.imp_right fun hr => hr.mono himp⟩

theorem Recorded.start (hr : h.Recorded g settled) (io : GrantVerifier.OpenIo) :
    (h.start io).Recorded g settled := by
  rcases hopen : GrantVerifier.withStateFiles h.files io with ⟨files, r⟩
  obtain ⟨hpreserves, hmemory⟩ := GrantVerifier.remembers_withStateFiles hopen hr.named
  unfold Host.start
  rw [hopen]
  cases r with
  | error => exact ⟨by simp, hpreserves.named hr.named, fun hs => hpreserves.kept (hr.kept hs)⟩
  | ok v =>
    refine ⟨fun w hw => ?_, hpreserves.named hr.named, fun hs => hpreserves.kept (hr.kept hs)⟩
    obtain rfl : v = w := Option.some.inj hw
    exact hmemory v rfl

/-- A power loss leaves the record if it leaves the entry, or if the record is settled. -/
theorem Recorded.restored (hr : h.Recorded g settled) {found : FoundFiles} (boottime : ℕ)
    (hfound : Survives h.files found)
    (hentry : h.files.journal.SurvivesNamed found.journal ∨ settled) :
    { h with verifier := none, boottime := boottime, files := restored h.files found }.Recorded g
      settled := by
  obtain ⟨f, hf, hmentions⟩ : ∃ f, found.journal = some f ∧ Mentions g.id g.expiresAtMs f.lines := by
    rcases hentry with hnamed | hs
    · exact hr.named.survives hnamed
    · exact (hr.kept hs).survives hfound.2.1
  have hkept : (h.files.journal.restored found.journal).Kept (Mentions g.id g.expiresAtMs) :=
    Slot.kept_restored hf hmentions
  exact ⟨by simp, hkept.named, fun _ => hkept⟩

/-- Every event keeps the record, or the clock is a day past the grant's expiry. -/
theorem Recorded.step {issuer : Issuer} (hr : h.Recorded g settled) (hadm : h.Admits issuer e)
    (hentry : ∀ found boottime io, e = .powerLoss found boottime io →
      h.files.journal.SurvivesNamed found.journal ∨ settled) :
    g.expiresAtMs + grantReplayRetentionMs ≤ (h.step e).1.controllerClock ∨
      (h.step e).1.Recorded g settled := by
  cases hcall : e.isCall with
  | true =>
    cases hv : h.verifier with
    | none =>
      rw [step_call_of_none hv hcall]
      exact .inr hr
    | some v =>
      rw [step_call hv hcall]
      have hremembers : Remembers v.journal h.files.journal g.id g.expiresAtMs :=
        ⟨hr.memory v hv, hr.named⟩
      rcases GrantVerifier.remembers_call (e := e) hremembers with
        ⟨hkept, hpreserves⟩ | ⟨reply, nodeId, epoch, io, c, rfl, hc, hanswers, hold⟩
      · refine .inr ⟨fun w hw => ?_, hkept.disk, fun hs => hpreserves.kept (hr.kept hs)⟩
        cases hw
        exact hkept.memory
      · -- the signed time is not ahead of the controller's clock
        obtain ⟨-, -, hstamp⟩ := hadm c (by simp [hv, hc]) hanswers
        exact .inl ((GrantJournal.le_of_isRetained_eq_false hold).trans hstamp)
  | false =>
    cases e with
    | elapse => exact .inr ⟨hr.memory, hr.named, hr.kept⟩
    | restart io => exact .inr (hr.start io)
    | powerLoss found boottime io =>
      exact .inr ((hr.restored boottime hadm (hentry found boottime io rfl)).start io)
    | _ => cases hcall

theorem controllerClock_le_step (h : Host) (e : Event) :
    h.controllerClock ≤ (h.step e).1.controllerClock := by
  cases hcall : e.isCall with
  | true =>
    cases hv : h.verifier with
    | none => exact Nat.le_of_eq (by rw [step_call_of_none hv hcall])
    | some => exact Nat.le_of_eq (by rw [step_call hv hcall])
  | false =>
    cases e with
    | elapse => exact Nat.le_add_right _ _
    | restart io => exact (controllerClock_start h io).ge
    | powerLoss found boottime io =>
      exact Nat.le_of_eq (controllerClock_start
        { h with boottime := boottime, files := Host.restored h.files found } io).symm
    | _ => cases hcall

theorem running_of_delivers {now : ℕ} (hdelivers : e.DeliversWithin a now)
    (hanswer : (h.step e).2 = .accepted (.ok true)) : ∃ v, h.verifier = some v := by
  cases hv : h.verifier with
  | some v => exact ⟨v, rfl⟩
  | none =>
    cases e with
    | acceptGrant =>
      simp [step, hv] at hanswer
    | _ => cases hdelivers

/-- A delivery newly accepts a grant only before its expiry, and only if no consumption of it is
on record. -/
theorem Timely.delivers (ht : h.Timely v) (hv : h.verifier = some v)
    (hdelivers : e.DeliversWithin a h.boottime) (hanswer : (h.step e).2 = .accepted (.ok true)) :
    h.controllerClock < a.grant.expiresAtMs ∧ v.journal.consumed[a.grant.id]? = none := by
  cases e with
  | acceptGrant grant documentHash nodeId recipientKeyId policy registration =>
    obtain ⟨rfl, -, -⟩ := hdelivers
    rcases hcall : v.acceptGrant a.grant documentHash nodeId recipientKeyId policy registration
      h.boottime with ⟨v', r⟩
    simp only [Host.step, hv, GrantVerifier.call, hcall, Answer.accepted.injEq] at hanswer
    obtain ⟨-, hno⟩ | ⟨nowController, deadline, hnow, -, hdeadline, -, -⟩ :=
      GrantVerifier.acceptGrant_cases hcall
    · exact absurd hanswer hno
    · have hle := ht.controllerClock_le hnow
      obtain ⟨hunknown, hlt, -⟩ := GrantVerifier.grantDeadline_ok hdeadline
      exact ⟨hle.trans_lt hlt, (GrantVerifier.missingGrantDenial_eq_unknown hunknown).1⟩
  | _ => cases hdelivers

end Host

/-! ### Runs -/

variable {issuer : Issuer} {run : List (Execution.Transition Host Event Answer)} {h : Host}
  {v : GrantVerifier} {e : Event} {g : Grant} {settled : Prop}

theorem signed_of_delivers {now : ℕ} (hdelivers : e.DeliversWithin a now)
    (hadm : h.Admits issuer e) : issuer.Signed a.grant := by
  cases e with
  | acceptGrant =>
    exact hdelivers.1 ▸ hadm
  | _ => cases hdelivers

theorem signed_of_accepted (hrun : (broker issuer).Run run h) (hv : h.verifier = some v)
    {id : String} (ha : v.accepted[id]? = some a) : issuer.Signed a.grant := by
  obtain ⟨before, t, after, rfl, hdelivers, -, -⟩ := accepted_provenance hrun hv ha
  obtain ⟨-, hadm, -⟩ := hrun.split
  exact signed_of_delivers hdelivers hadm

theorem Host.Spent.step (hs : h.Spent g settled) (hrun : (broker issuer).Run run h)
    (hg : issuer.Signed g) (hadm : h.Admits issuer e)
    (hentry : ∀ found boottime io, e = .powerLoss found boottime io →
      h.files.journal.SurvivesNamed found.journal ∨ settled) : (h.step e).1.Spent g settled := by
  have hclock := h.controllerClock_le_step e
  refine ⟨fun v' hv' => ?_, ?_⟩
  · cases ha : v'.accepted[g.id]? with
    | none => rfl
    | some a =>
      exfalso
      have hauth : ∀ v, h.verifier = some v → v.Authority := fun v hv => authority_of_run hrun hv
      obtain ⟨v, hv, hold, -⟩ | ⟨hdelivers, hid, hanswer⟩ := Host.accepted_step hauth hv' ha
      · rw [hs.unaccepted v hv] at hold
        cases hold
      -- a delivery that is accepted comes before the expiry and finds no record
      obtain ⟨v, hv⟩ := Host.running_of_delivers hdelivers hanswer
      obtain ⟨hlt, hnone⟩ := (timely_of_run hrun hv).delivers hv hdelivers hanswer
      have hexpiry := issuer.oneExpiry g a.grant hg (signed_of_delivers hdelivers hadm) hid.symm
      rcases hs.recorded with hold | hr
      · omega
      · rw [hid, hr.memory v hv] at hnone
        cases hnone
  · rcases hs.recorded with hold | hr
    · exact .inl (hold.trans hclock)
    · exact hr.step hadm hentry

/-- A consumption, if the transition is one, finds the journal's entry settled. -/
def ConsumesSettled (t : Execution.Transition Host Event Answer) : Prop :=
  ∀ grantId authorization policyVersion io, t.event = .consume grantId authorization policyVersion io →
    t.before.files.journal.entry.stale = []

/-- A power loss keeps the journal's entry, or comes after consumptions that all found it
settled. -/
def EntryKept (run : List (Execution.Transition Host Event Answer)) : Prop :=
  ∀ before t after, run = before ++ t :: after →
    ∀ found boottime io, t.event = .powerLoss found boottime io →
      t.before.files.journal.SurvivesNamed found.journal ∨ ∀ u ∈ before, ConsumesSettled u

/-- A consumption that succeeds spends the grant. -/
theorem Host.spent_of_consumed (hrun : (broker issuer).Run run h)
    (hanswer : (h.step e).2 = .consumed (.ok g)) :
    (h.step e).1.Spent g (ConsumesSettled ((broker issuer).transition h e)) := by
  obtain ⟨v, v', files', grantId, authorization, policyVersion, io, hv, he, hcall, hstep⟩ :=
    Host.consume_of_answer hanswer
  obtain ⟨a, -, -, rfl, -, journal, slot, hrec, rfl, rfl⟩ :=
    GrantVerifier.consume_ok (authority_of_run hrun hv) hcall
  have hremembers := GrantJournal.recordBoundConsumption_ok hrec
  rw [hstep]
  refine ⟨fun w hw => ?_, .inr ⟨fun w hw => ?_, hremembers.disk, fun hsettled => ?_⟩⟩
  · cases hw
    simp
  · cases hw
    exact hremembers.memory
  · have hstale := GrantJournal.stale_recordBoundConsumption hrec (hsettled _ _ _ io he)
    exact hremembers.disk.kept hstale

/-- The event is a power loss. -/
def Event.isPowerLoss : Event → Bool
  | .powerLoss .. => true
  | _ => false

/-- Restarts of the process alone take no entry. -/
theorem entryKept_of_restarts (h : ∀ t ∈ run, t.event.isPowerLoss = false) : EntryKept run := by
  rintro before t after rfl found boottime io he
  have hno := h t (by simp)
  rw [he] at hno
  cases hno

theorem spent_of_run (hrun : (broker issuer).Run run h)
    (hentry : EntryKept run) : ∀ t ∈ run, ∀ g, t.output = .consumed (.ok g) →
      h.Spent g (∀ u ∈ run, ConsumesSettled u) ∧ issuer.Signed g := by
  induction hrun with
  | start => simp
  | @step run h e hrun hadm ih =>
    have hprior : EntryKept run := by
      intro before t after hsplit
      exact hentry before t (after ++ [(broker issuer).transition h e]) (by simp [hsplit])
    have hsettled : (∀ u ∈ run ++ [(broker issuer).transition h e], ConsumesSettled u) →
        ∀ u ∈ run, ConsumesSettled u :=
      fun hall u hu => hall u (List.mem_append_left _ hu)
    intro t ht g hconsumed
    rcases List.mem_append.mp ht with ht | ht
    · obtain ⟨hspent, hg⟩ := ih hprior t ht g hconsumed
      refine ⟨(hspent.step hrun hg hadm fun found boottime io he => ?_).mono hsettled, hg⟩
      exact hentry run _ [] rfl found boottime io he
    · obtain rfl := List.mem_singleton.mp ht
      obtain ⟨v, v', files', grantId, authorization, policyVersion, io, hv, -, hcall, -⟩ :=
        Host.consume_of_answer hconsumed
      obtain ⟨a, ha, rfl, -⟩ := GrantVerifier.consume_ok (authority_of_run hrun hv) hcall
      refine ⟨(Host.spent_of_consumed hrun hconsumed).mono fun hall => ?_,
        signed_of_accepted hrun hv ha⟩
      exact hall _ (by simp)

theorem eq_consumed_of_releases {answer : Answer} {id : String} (h : answer.releases id = true) :
    ∃ g, answer = .consumed (.ok g) ∧ g.id = id := by
  unfold Answer.releases at h
  split at h
  · rename_i grant
    exact ⟨grant, rfl, by simpa using h⟩
  · cases h

/-- At most one consumption of a grant succeeds, in every run in which no power loss takes the
journal's entry after a consumption succeeded without settling it: across any restarts, any
failures of system calls, and the pruning of the journal. -/
theorem consume_at_most_once (hrun : (broker issuer).Run run h)
    (hentry : EntryKept run) (grantId : String) :
    run.countP (fun t => t.output.releases grantId) ≤ 1 := by
  refine Execution.countP_le_one fun before t after hsplit ht u hu => ?_
  subst hsplit
  obtain ⟨hrun, -, htransition⟩ := hrun.split
  have hprior : EntryKept before := fun first t' rest hfirst =>
    hentry first t' (rest ++ t :: after) (by simp [hfirst])
  rw [Bool.eq_false_iff]
  intro hagain
  obtain ⟨g, hg, rfl⟩ := eq_consumed_of_releases ht
  obtain ⟨g', hg', hsame⟩ := eq_consumed_of_releases hagain
  -- the earlier consumption spent the grant that the later one finds accepted
  obtain ⟨hspent, -⟩ := spent_of_run hrun hprior u hu g' hg'
  rw [htransition] at hg
  obtain ⟨v, v', files', grantId, authorization, policyVersion, io, hv, -, hcall, -⟩ :=
    Host.consume_of_answer hg
  obtain ⟨a, ha, -, rfl, -⟩ := GrantVerifier.consume_ok (authority_of_run hrun hv) hcall
  have hnone := hspent.unaccepted v hv
  rw [hsame, ha] at hnone
  cases hnone

namespace Sample

/-- The append that creates the journal fails to synchronise the directory. -/
def unsyncedDirectory : GrantJournal.RecordIo :=
  { GrantJournal.RecordIo.clean with
    append := { Slot.AppendIo.clean with directory := false } }

/-- Both grants are accepted and consumed; the directory is not synchronised. The first
consumption fails, the second succeeds. -/
def consumedUnsynced : List Event :=
  .restart .clean :: synchronise 100000 ++
    [deliver "gr_1", deliver "gr_2", consume "gr_1" unsyncedDirectory, consume "gr_2" .clean]

/-- The process restarts and both grants are delivered and consumed again. -/
def restarted : List Event :=
  consumedUnsynced ++ .restart .clean :: synchronise 100010 ++
    [deliver "gr_1", deliver "gr_2", consume "gr_1" .clean, consume "gr_2" .clean]

/-- The host loses power, and with it the journal's entry; the second grant is delivered and
consumed again. -/
def poweredOff : List Event :=
  consumedUnsynced ++ .powerLoss ⟨some ⟨[some 100006], 0⟩, none, none, none⟩ 900 .clean ::
    synchronise 100010 ++ [deliver "gr_2", consume "gr_2" .clean]

end Sample

theorem consume_at_most_once_restarted :
    let played := (broker Sample.controller).play Sample.host Sample.restarted
    (played.1.countP fun t => t.output.releases "gr_2") = 1 ∧
      (played.1.countP fun t => t.output.releases "gr_2") ≤ 1 :=
  ⟨by decide +kernel,
    consume_at_most_once
      (Execution.Machine.run_play (m := broker Sample.controller) (s := Sample.host) rfl
        (by decide +kernel))
      (entryKept_of_restarts (by decide +kernel)) "gr_2"⟩

/-- The directory entry of the journal is lost with a consumption that succeeded. -/
theorem consume_twice : ∃ run h, (broker Sample.controller).Run run h ∧
    (run.countP fun t => t.output.releases "gr_2") = 2 :=
  have hadm : (broker Sample.controller).AdmitsAll Sample.host Sample.poweredOff := by decide +kernel
  ⟨_, _, Execution.Machine.run_play rfl hadm, by decide +kernel⟩

end BlindPass.Broker
