import BlindPass.Broker.Writers

/-!
# What writers that share a journal keep

Over any run of any number of writers, with any of their system calls failing: the file holds
what was recorded and not pruned since, no grant is recorded again while its record is retained,
the header never goes back, and no process takes another one's pruning for a rollback.

The file holds nothing else as long as no `record` fails after its line is written. It does fail
there when the directory of a new file cannot be synchronised, when the file cannot be inspected
afterwards, or when a line whose flush failed cannot be taken back.
-/

namespace BlindPass.Broker

open GrantJournal Execution

/-- A step of the writers. -/
abbrev WriterTransition := Transition SharedJournal WriterEvent (Option (Except String Unit))

/-- The step recorded the consumption, and said so. -/
def Recorded (grantId : String) (expiresAtMs : ℕ) (t : WriterTransition) : Prop :=
  t.output = some (.ok ()) ∧ ∃ process binding nodeId io,
    t.event = .record process ⟨grantId, expiresAtMs, binding⟩ nodeId io

/-- The step pruned at a time a day past the expiry. -/
def PrunesPast (expiresAtMs : ℕ) (t : WriterTransition) : Prop :=
  ∃ process authenticatedTimeMs io, t.event = .prune process authenticatedTimeMs io ∧
    expiresAtMs + grantReplayRetentionMs ≤ authenticatedTimeMs

variable {run : List WriterTransition} {s : SharedJournal} {L L' : Ledger} {e : WriterEvent}

/-- In every state reached the path holds a ledger that every process tracks. -/
theorem exists_inv (h : writers.Run run s) : ∃ L, s.Inv L := by
  refine h.invariant (P := fun s => ∃ L, s.Inv L) ?_ ?_
  · rintro s ⟨hslot, hwriter⟩
    refine ⟨.empty, ?_, fun process j hj => ?_⟩
    · rw [hslot]
      rfl
    · rw [hwriter] at hj
      cases hj
  · rintro s e ⟨L, hL⟩ he
    obtain ⟨L', hL', -⟩ := SharedJournal.inv_step hL he
    exact ⟨L', hL'⟩

variable {t : WriterTransition} {expiry : ℕ} {id : String}

theorem exists_effect (h : s.Inv L) (he : e.IsCall) (ht : writers.transition s e = t) :
    t.before = s ∧ t.event = e ∧ ∃ L', t.after.Inv L' ∧ s.Effect e t.output L L' := by
  obtain ⟨L', hL', -, -, heffect⟩ := SharedJournal.inv_step h he
  subst ht
  exact ⟨rfl, rfl, L', hL', heffect⟩

/-- A record stays durable through a step that does not prune past it. -/
theorem durable_step (h : s.Inv L) (he : e.IsCall) (ht : writers.transition s e = t)
    (hdurable : s.Durable id expiry) (hkept : ¬ PrunesPast expiry t) :
    t.after.Durable id expiry := by
  obtain ⟨-, hevent, L', hL', heffect⟩ := exists_effect h he ht
  rw [h.durable_iff] at hdurable
  rw [hL'.durable_iff]
  cases e with
  | record =>
    rcases heffect with ⟨-, hsame⟩ | ⟨-, -, hadded⟩
    · exact (hsame id expiry).mpr hdurable
    · exact (hadded id expiry).mpr (.inl hdurable)
  | prune process authenticatedTimeMs io =>
    rcases heffect with ⟨-, hsame⟩ | hdropped
    · exact (hsame id expiry).mpr hdurable
    refine (hdropped id expiry).mpr ⟨hdurable, ?_⟩
    by_contra hretained
    refine hkept ⟨process, authenticatedTimeMs, io, hevent, ?_⟩
    exact le_of_isRetained_eq_false (Bool.eq_false_iff.mpr hretained)
  | initializeConsumptionHistory | bind => exact (heffect id expiry).mpr hdurable
  | «open» process lock io => exact (heffect id expiry).mpr hdurable

/-- What a step recorded is durable, and was not there before under any expiry. -/
theorem durable_of_records (h : s.Inv L) (he : e.IsCall) (ht : writers.transition s e = t)
    (hrecorded : Recorded id expiry t) :
    t.after.Durable id expiry ∧ ∀ expiry', ¬ s.Durable id expiry' := by
  obtain ⟨-, hevent, L', hL', heffect⟩ := exists_effect h he ht
  obtain ⟨hok, process, binding, nodeId, io, hrecord⟩ := hrecorded
  obtain rfl : e = .record process ⟨id, expiry, binding⟩ nodeId io := hevent.symm.trans hrecord
  rcases heffect with ⟨hne, -⟩ | ⟨-, hnew, hadded⟩
  · exact absurd hok hne
  · refine ⟨(hL'.durable_iff id expiry).mpr ((hadded id expiry).mpr (.inr ⟨rfl, rfl⟩)), ?_⟩
    intro expiry' hdurable
    exact hnew expiry' ((h.durable_iff id expiry').mp hdurable)

/-- A recorded consumption that no later step prunes past is durable. -/
theorem durable_of_recorded {before after : List WriterTransition}
    (h : writers.Run (before ++ t :: after) s) (hrecorded : Recorded id expiry t)
    (hkept : ∀ u ∈ after, ¬ PrunesPast expiry u) : s.Durable id expiry := by
  refine h.induct_after
    (Q := fun after s => (∀ u ∈ after, ¬ PrunesPast expiry u) → s.Durable id expiry) ?_ ?_ hkept
  · intro s e hr he ht _
    obtain ⟨L, hL⟩ := exists_inv hr
    rw [ht] at hrecorded
    exact (durable_of_records hL he rfl hrecorded).1
  · intro after s e hr he ih hkept
    obtain ⟨L, hL⟩ := exists_inv hr
    have hdurable := ih fun w hw => hkept w (List.mem_append_left _ hw)
    exact durable_step hL he rfl hdurable (hkept _ (by simp))

/-- A durable record comes from a call that recorded it, or was there before the step. -/
theorem recorded_or_durable (h : s.Inv L) (he : e.IsCall) (ht : writers.transition s e = t)
    (hreported : e.leavesUnreported s = false) (hdurable : t.after.Durable id expiry) :
    Recorded id expiry t ∨ (s.Durable id expiry ∧ (PrunesPast expiry t → t.output ≠ some (.ok ()))) := by
  obtain ⟨-, hevent, L', hL', heffect⟩ := exists_effect h he ht
  rw [hL'.durable_iff] at hdurable
  rw [h.durable_iff]
  have hother : (∀ process time io, e ≠ .prune process time io) →
      PrunesPast expiry t → t.output ≠ some (.ok ()) := by
    rintro hne ⟨process, time, io, hprune, -⟩
    exact absurd (hevent.symm.trans hprune) (hne process time io)
  cases e with
  | record process r nodeId io =>
    rcases heffect with ⟨-, hsame⟩ | ⟨hdone, -, hadded⟩
    · exact .inr ⟨(hsame id expiry).mp hdurable, hother (by simp)⟩
    rcases (hadded id expiry).mp hdurable with hbefore | ⟨rfl, rfl⟩
    · exact .inr ⟨hbefore, hother (by simp)⟩
    refine .inl ⟨?_, process, r.binding, nodeId, io, hevent⟩
    rcases hdone with hok | hunreported
    · exact hok
    · exact absurd hunreported (Bool.eq_false_iff.mp hreported)
  | prune process authenticatedTimeMs io =>
    rcases heffect with ⟨hne, hsame⟩ | hdropped
    · exact .inr ⟨(hsame id expiry).mp hdurable, fun _ => hne⟩
    obtain ⟨hbefore, hretained⟩ := (hdropped id expiry).mp hdurable
    refine .inr ⟨hbefore, ?_⟩
    rintro ⟨process', time, io', hprune, hpast⟩
    obtain ⟨rfl, rfl, rfl⟩ : process = process' ∧ authenticatedTimeMs = time ∧ io = io' := by
      simpa using hevent.symm.trans hprune
    rw [← isRetained_eq_false_iff he, hretained] at hpast
    cases hpast
  | initializeConsumptionHistory =>
    exact .inr ⟨(heffect id expiry).mp hdurable, hother (by simp)⟩
  | «open» process lock io => exact .inr ⟨(heffect id expiry).mp hdurable, hother (by simp)⟩
  | bind => exact .inr ⟨(heffect id expiry).mp hdurable, hother (by simp)⟩

/-- If no call fails after its line is written, a durable record was recorded by a call that
said so, and no pruning past it has succeeded since. -/
theorem recorded_of_durable (h : writers.Run run s)
    (hreported : ∀ t ∈ run, t.event.leavesUnreported t.before = false)
    (hdurable : s.Durable id expiry) :
    ∃ before t after, run = before ++ t :: after ∧ Recorded id expiry t ∧
      ∀ u ∈ after, PrunesPast expiry u → u.output ≠ some (.ok ()) := by
  induction h with
  | @start s hs =>
    rw [SharedJournal.Durable, hs.1] at hdurable
    obtain ⟨b, hb⟩ := hdurable
    exact absurd hb List.not_mem_nil
  | @step run s e hr he ih =>
    obtain ⟨L, hL⟩ := exists_inv hr
    have hlast : e.leavesUnreported s = false :=
      hreported (writers.transition s e) (List.mem_append_right run (.head _))
    have hafter : (writers.transition s e).after.Durable id expiry := hdurable
    rcases recorded_or_durable hL he rfl hlast hafter with hrecorded | ⟨hbefore, hspared⟩
    · exact ⟨run, _, [], rfl, hrecorded, fun u hu => absurd hu List.not_mem_nil⟩
    obtain ⟨before, t, after, rfl, hrecorded, hafter⟩ :=
      ih (fun t ht => hreported t (List.mem_append_left _ ht)) hbefore
    refine ⟨before, t, after ++ [writers.transition s e], by simp, hrecorded, fun u hu => ?_⟩
    rcases List.mem_append.mp hu with hu | hu
    · exact hafter u hu
    · exact List.mem_singleton.mp hu ▸ hspared

/-! ### What the writers promise -/

/-- What the writers promise of a run that reaches `s`. -/
structure WellKept (run : List WriterTransition) (s : SharedJournal) : Prop where
  /-- A durable record was recorded, and not pruned since. -/
  recorded : ∀ id expiry, s.Durable id expiry → ∃ before t after, run = before ++ t :: after ∧
    Recorded id expiry t ∧ ∀ u ∈ after, PrunesPast expiry u → u.output ≠ some (.ok ())
  /-- A recorded consumption is durable until a pruning a day past its expiry. -/
  durable : ∀ before t after id expiry, run = before ++ t :: after → Recorded id expiry t →
    (∀ u ∈ after, ¬ PrunesPast expiry u) → s.Durable id expiry
  /-- A grant is recorded again only after such a pruning. -/
  once : ∀ before t middle u after id expiry expiry', run = before ++ t :: (middle ++ u :: after) →
    Recorded id expiry t → Recorded id expiry' u → ∃ w ∈ middle, PrunesPast expiry w
  /-- The header never goes back. -/
  monotone : ∀ t ∈ run, ∀ h ∈ t.before.header?, ∃ h' ∈ t.after.header?,
    h.prunedThroughMs ≤ h'.prunedThroughMs ∧ h.highestIssuerEpoch ≤ h'.highestIssuerEpoch
  /-- No process reports a rollback. -/
  accepted : ∀ t ∈ run, ∀ err ∈ rollbackErrors, t.output ≠ some (.error err)

/-- Every run in which no call fails after its line is written is well kept. -/
theorem well_kept (h : writers.Run run s)
    (hreported : ∀ t ∈ run, t.event.leavesUnreported t.before = false) : WellKept run s where
  recorded id expiry hdurable := recorded_of_durable h hreported hdurable
  durable before t after id expiry hrun hrecorded hkept :=
    durable_of_recorded (hrun ▸ h) hrecorded hkept
  once before t middle u after id expiry expiry' hrun hfirst hsecond := by
    by_contra hnone
    have hsplit : run = (before ++ t :: middle) ++ u :: after := by simp [hrun]
    rw [hsplit] at h
    obtain ⟨hprior, he, hu⟩ := h.split
    have hdurable := durable_of_recorded hprior hfirst fun w hw hprunes => hnone ⟨w, hw, hprunes⟩
    obtain ⟨L, hL⟩ := exists_inv hprior
    exact (durable_of_records hL he hu.symm hsecond).2 expiry hdurable
  monotone := by
    refine h.forall_mem fun prior s e hprior he header hheader => ?_
    obtain ⟨L, hL⟩ := exists_inv hprior
    obtain ⟨L', hL', hlater, -⟩ := SharedJournal.inv_step hL he
    rw [Machine.transition_before, hL.header?_eq] at hheader
    rw [Machine.transition_after]
    obtain ⟨header', hheader', -, hpruned, hepoch, -⟩ := hlater.precedes header hheader
    exact ⟨header', hL'.header?_eq ▸ hheader', hpruned, hepoch⟩
  accepted := by
    refine h.forall_mem fun prior s e hprior he err herr hout => ?_
    obtain ⟨L, hL⟩ := exists_inv hprior
    obtain ⟨L', -, -, haccepted, -⟩ := SharedJournal.inv_step hL he
    exact haccepted err hout herr

/-! ### Sample runs -/

/-- Nothing at the path and no process. -/
def noJournal : SharedJournal := ⟨.absent, fun _ => none⟩

theorem start_noJournal : writers.Start noJournal := ⟨rfl, fun _ => rfl⟩

/-- A consumption of `gr_1`. -/
def firstConsumption : Consumption := ⟨"gr_1", 62000, some ⟨"op_1", 1⟩⟩

/-- A consumption of `gr_2`. -/
def secondConsumption : Consumption := ⟨"gr_2", 90000000, some ⟨"op_2", 1⟩⟩

/-- Two brokers with one journal, bound to its controller: both consume, and one prunes. -/
def sharedEvents : List WriterEvent :=
  [.initializeConsumptionHistory (List.replicate 32 7) .clean, .open 0 true .clean,
    .bind ⟨"tenant-1", "node-1", 1, "key-1"⟩ .clean, .open 1 true .clean,
    .record 0 firstConsumption (some "node-1") .clean,
    .record 1 secondConsumption (some "node-1") .clean, .prune 0 86462000 .clean,
    .record 1 firstConsumption (some "node-1") .clean]

theorem admitsAll_of_isCall {s : SharedJournal} {events : List WriterEvent}
    (h : ∀ e ∈ events, e.IsCall) : writers.AdmitsAll s events :=
  Machine.admitsAll_of fun e he _ => h e he

theorem isCall_sharedEvents : ∀ e ∈ sharedEvents, e.IsCall := by
  simp [sharedEvents, WriterEvent.IsCall, firstConsumption, secondConsumption]
  decide

theorem well_kept_shared : (∀ t ∈ (writers.play noJournal sharedEvents).1,
      t.event.leavesUnreported t.before = false) ∧
    (writers.play noJournal sharedEvents).1.map Transition.output =
      List.replicate 8 (some (.ok ())) ∧
    WellKept (writers.play noJournal sharedEvents).1 (writers.play noJournal sharedEvents).2 := by
  have hreported : ∀ t ∈ (writers.play noJournal sharedEvents).1,
      t.event.leavesUnreported t.before = false := by decide +kernel
  refine ⟨hreported, by decide +kernel, well_kept ?_ hreported⟩
  exact Machine.run_play start_noJournal (admitsAll_of_isCall isCall_sharedEvents)

/-- The first consumption of a new journal whose directory cannot be synchronised. -/
def unsynchronisedEvents : List WriterEvent :=
  [.open 0 true .clean, .record 0 firstConsumption (some "node-1")
    { GrantJournal.RecordIo.clean with append := { Storage.Slot.AppendIo.clean with directory := false } }]

def WriterEvent.isRecord : WriterEvent → Bool
  | .record .. => true
  | _ => false

/-- The call fails, and its record is in the file. -/
theorem kept_unreported : writers.Run (writers.play noJournal unsynchronisedEvents).1
        (writers.play noJournal unsynchronisedEvents).2 ∧
      (writers.play noJournal unsynchronisedEvents).2.Durable "gr_1" 62000 ∧
      ∀ t ∈ (writers.play noJournal unsynchronisedEvents).1, ¬ Recorded "gr_1" 62000 t := by
  refine ⟨Machine.run_play start_noJournal (admitsAll_of_isCall ?_), ⟨some ⟨"op_1", 1⟩, ?_⟩, ?_⟩
  · simp [unsynchronisedEvents, WriterEvent.IsCall, firstConsumption]
    decide
  · decide +kernel
  have hopened : ∀ t ∈ (writers.play noJournal unsynchronisedEvents).1,
      t.output = some (.ok ()) → t.event.isRecord = false := by
    decide +kernel
  rintro t ht ⟨hok, process, binding, nodeId, io, hevent⟩
  have hrecord := hopened t ht hok
  rw [hevent] at hrecord
  cases hrecord

end BlindPass.Broker
