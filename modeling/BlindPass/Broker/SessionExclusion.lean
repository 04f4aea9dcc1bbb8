import BlindPass.Broker.SessionRuns

/-!
# One session for an account

A new reservation is answered only after the table with it is on disk, and no other unfinished
record of that table has its account or its unit. From then on the record is held: it stays
unfinished in memory and in every file that a power loss may bring back, until a reconciliation
confirmed both effects or its maximum lifetime is over.
-/

namespace BlindPass.Broker

open SessionSnapshot (load)
open SessionJournal (commit commit_spec file_of_writeSnapshot isDue isStale persist_eq_ok planned
  put tryUnfence written_persist written_writeSnapshot)

/-! ### Unfinished records -/

/-- The table has an unfinished record of this operation, binding and time. -/
def OpenIn (operation : String) (binding : SessionBinding) (created : ℕ)
    (records : Std.TreeMap String SessionRecord) : Prop :=
  ∃ r : SessionRecord, records[operation]? = some r ∧ r.state ≠ .closed ∧ r.binding = binding ∧
    r.createdAtMs = created

/-- A reader of this file finds the unfinished record. -/
def FileHolds (operation : String) (binding : SessionBinding) (created : ℕ)
    (left : Option (List UInt8)) : Prop :=
  ∃ bytes s, left = some bytes ∧ load bytes = some s ∧ OpenIn operation binding created s.records

/-- The record is unfinished in memory and in every file that a power loss may bring back. -/
def SessionHost.Holds (operation : String) (binding : SessionBinding) (created : ℕ)
    (s : SessionHost) : Prop :=
  (∀ left ∈ s.file.values, FileHolds operation binding created left) ∧
    ∀ j, s = .running j → OpenIn operation binding created j.records

/-- The step is a reconciliation of the operation with both effects confirmed, or a release at a
time the record's maximum lifetime is over. -/
def Closes (operation : String) (created : ℕ)
    (t : Execution.Transition SessionHost SessionEvent (Option (Except String SessionReply))) : Prop :=
  ∃ j time io now, t.before = .running j ∧ j.effectiveTime time = .ok now ∧
    (t.event = .request (.reconcile operation true true time) io ∨
      t.event = .request (.releaseExpired time) io ∧ created + releaseAfterMs ≤ now)

variable {request : SessionRequest} {run : List (Execution.Transition _ _ _)}

section Open

variable {operation : String} {binding : SessionBinding} {created : ℕ}
  {records records' : Std.TreeMap String SessionRecord}

theorem OpenIn.congr (h : OpenIn operation binding created records)
    (heq : records'[operation]? = records[operation]?) :
    OpenIn operation binding created records' := by
  rw [OpenIn, heq]
  exact h

theorem OpenIn.demote (h : OpenIn operation binding created records) :
    OpenIn operation binding created (records.map fun _ r => SessionRecord.demote r) := by
  obtain ⟨r, hr, hopen, hbinding, hcreated⟩ := h
  have hclosed : r.isClosed = false := by simpa [SessionRecord.isClosed] using hopen
  refine ⟨r.demote, ?_, ?_, ?_, ?_⟩
  · rw [Std.TreeMap.getElem?_map, hr, Option.map_some]
  · simp [SessionRecord.demote, hclosed]
  · rw [SessionSnapshot.demote_binding, hbinding]
  · simp [SessionRecord.demote, hclosed, hcreated]

variable {j j' : SessionJournal}

/-- An unfinished record stays unfinished unless the request closes it. -/
theorem OpenIn.effect (h : OpenIn operation binding created j.records) (hs : j.snapshot.Sound 4)
    (heffect : j.Effect request j') : OpenIn operation binding created j'.records ∨
      ∃ time now, j.effectiveTime time = .ok now ∧ (request = .reconcile operation true true time ∨
          request = .releaseExpired time ∧ created + releaseAfterMs ≤ now) := by
  obtain ⟨r, hr, hopen, hbinding, hcreated⟩ := h
  have hclosed : r.isClosed = false := by simpa [SessionRecord.isClosed] using hopen
  cases heffect with
  | still | touch => exact .inl ⟨r, hr, hopen, hbinding, hcreated⟩
  | @reserve new _ now _ _ hnone =>
    -- the new record is filed under another operation
    have hne : operation ≠ new.operationId := by
      rintro rfl
      rw [hnone] at hr
      cases hr
    refine .inl ⟨r, ?_, hopen, hbinding, hcreated⟩
    rw [put, Table.getElem?_insert, if_neg hne, hr]
  | @advance _ other p p' now _ hp hadvance =>
    by_cases hother : operation = other
    · subst hother
      obtain rfl : r = p := Option.mem_unique hr hp
      refine .inl ⟨p', ?_, ?_, hadvance.binding_eq.trans hbinding,
        hadvance.createdAtMs_eq.trans hcreated⟩
      · rw [put, Table.getElem?_insert, if_pos rfl]
      · simpa [SessionRecord.isClosed] using hadvance.open_after
    · refine .inl ⟨r, ?_, hopen, hbinding, hcreated⟩
      rw [put, Table.getElem?_insert, if_neg hother, hr]
  | @close other p time now hnow hp =>
    by_cases hother : operation = other
    · subst hother
      exact .inr ⟨time, now, hnow, .inl rfl⟩
    · refine .inl ⟨r, ?_, hopen, hbinding, hcreated⟩
      rw [put, Table.getElem?_insert, if_neg hother, hr]
  | @release time now hnow =>
    by_cases hdue : isDue now r
    · refine .inr ⟨time, now, hnow, .inr ⟨rfl, ?_⟩⟩
      have hdue : r.createdAtMs + releaseAfterMs ≤ now := by
        simpa [isDue, hclosed] using hdue
      rwa [← hcreated]
    · refine .inl ⟨r, ?_, hopen, hbinding, hcreated⟩
      exact Table.getElem?_updateWhere_eq_some.mpr ⟨r, hr, if_neg hdue⟩
  | @prune time now hnow =>
    -- an unfinished record has no closing time, so it is never stale
    have hconsistent := hs.consistent operation r hr
    simp only [SessionRecord.isConsistent, Bool.and_eq_true] at hconsistent
    have hnone := SessionRecord.closedAtMs_eq_none hclosed hconsistent.2
    refine .inl ⟨r, ?_, hopen, hbinding, hcreated⟩
    refine Table.getElem?_filter_eq_some.mpr ⟨hr, ?_⟩
    simp [isStale, hnone]

theorem FileHolds.of_body {bytes : List UInt8} (h : OpenIn operation binding created j.records)
    (hs : j.snapshot.Sound 4) (hbody : j.snapshot.body = some bytes) :
    FileHolds operation binding created (some bytes) := by
  obtain ⟨s, hload, -, hrecords⟩ := SessionSnapshot.load_body hs hbody
  exact ⟨bytes, s, rfl, hload, h.congr (hrecords operation)⟩

/-- Writing a table that holds the record leaves it held in every file. -/
theorem holds_of_written (hfile : ∀ left ∈ j.file.values, FileHolds operation binding created left)
    (h : OpenIn operation binding created j.records) (hs : j.snapshot.Sound 4)
    (hwritten : j.Written j') : (SessionHost.running j').Holds operation binding created := by
  constructor
  · intro left hleft
    rcases hwritten.file left hleft with hold | ⟨bytes, hbody, rfl⟩
    · exact hfile left hold
    · exact .of_body h hs hbody
  · intro j'' heq
    obtain rfl := SessionHost.running.inj heq
    exact h.congr (by rw [hwritten.records_eq])

end Open

/-! ### A record is held until it is closed -/

variable {file : Storage.Durable (Option (List UInt8))} {event : SessionEvent}

section Held

variable {operation : String} {binding : SessionBinding} {created : ℕ} {s : SessionHost}

variable {j : SessionJournal}

theorem openIn_of_loaded {changed : Bool} (hload : SessionJournal.loaded file = .ok (j, changed))
    (h : FileHolds operation binding created file.visible) :
    OpenIn operation binding created j.records ∧ j.file = file := by
  obtain ⟨bytes, s, hvisible, hs, hopen⟩ := h
  rw [SessionJournal.loaded, hvisible] at hload
  simp only [hs] at hload
  split at hload
  · cases hload
  cases hload
  exact ⟨hopen.demote, rfl⟩

theorem holds_openAt (h : (SessionHost.stopped file).Holds operation binding created)
    (io : DiskWrite) :
    ((SessionHost.stopped file).step (.openAt io)).1.Holds operation binding created := by
  simp only [SessionHost.step]
  rcases openAt_cases file io with ⟨e, ho⟩ | ⟨j, changed, hload, ho⟩
  · rw [ho]
    exact h
  obtain ⟨hopen, hfile⟩ := openIn_of_loaded hload (h.1 _ (.head _))
  have hsound := sound_of_loaded hload
  have hold : ∀ left ∈ j.file.values, FileHolds operation binding created left := by
    rw [hfile]
    exact h.1
  rcases ho with ⟨-, ho⟩ | ⟨j', e, hp, ho⟩ | ⟨j', hp, ho⟩ <;> rw [ho]
  · exact holds_of_written hold hopen hsound (.refl j)
  · have hwritten := written_persist j io
    rw [hp] at hwritten
    exact ⟨(holds_of_written hold hopen hsound hwritten).1, by rintro _ ⟨⟩⟩
  · have hwritten := written_persist j io
    rw [hp] at hwritten
    exact holds_of_written hold hopen hsound hwritten

theorem SessionJournal.written_tryUnfence (j : SessionJournal) (io : DiskWrite) :
    j.Written (j.tryUnfence io).1 := by
  rw [tryUnfence]
  split
  · exact .refl j
  have hwritten := written_writeSnapshot j io
  rcases hw : j.writeSnapshot io with ⟨j', e | ⟨⟩⟩ <;> rw [hw] at hwritten
  · exact hwritten
  · exact ⟨hwritten.records_eq, hwritten.time_eq, hwritten.file⟩

/-- A step that does not close the record keeps it held. -/
theorem holds_step (hkept : s.Kept) (hadm : sessions.Admits s event)
    (h : s.Holds operation binding created) :
    (sessions.step s event).1.Holds operation binding created ∨
      Closes operation created (sessions.transition s event) := by
  cases event with
  | crash left =>
    have hleft : FileHolds operation binding created left := h.1 left hadm
    refine .inl ⟨?_, ?_⟩
    · have hfile : (sessions.step s (.crash left)).1.file = .settled left := by cases s <;> rfl
      rw [hfile]
      intro left' hmem
      rwa [List.mem_singleton.mp hmem]
    · have hstopped : (sessions.step s (.crash left)).1 = .stopped (.settled left) := by
        cases s <;> rfl
      rw [hstopped]
      nofun
  | exit =>
    cases s with
    | stopped => exact .inl h
    | running => exact .inl ⟨h.1, nofun⟩
  | openAt io =>
    cases s with
    | stopped => exact .inl (holds_openAt h io)
    | running => exact .inl h
  | tryUnfence io =>
    cases s with
    | stopped => exact .inl h
    | running j => exact .inl (holds_of_written h.1 (h.2 j rfl) hkept (j.written_tryUnfence io))
  | request request io =>
    cases s with
    | stopped => exact .inl h
    | running j =>
      obtain ⟨j', heffect, hwritten⟩ := commit_spec j request io
      rcases (h.2 j rfl).effect hkept heffect with hopen | ⟨time, now, hnow, hrequest⟩
      · have hfile : ∀ left ∈ j'.file.values, FileHolds operation binding created left := by
          rw [heffect.file_eq]
          exact h.1
        exact .inl (holds_of_written hfile hopen (heffect.sound hkept) hwritten)
      · refine .inr ⟨j, time, io, now, rfl, hnow, ?_⟩
        rcases hrequest with rfl | ⟨rfl, hle⟩
        · exact .inl rfl
        · exact .inr ⟨rfl, hle⟩

/-- In memory, too, a record is unfinished until a step closes it. -/
theorem openIn_step {j' : SessionJournal} (hs : j.snapshot.Sound 4)
    (hj' : (sessions.step (.running j) event).1 = .running j')
    (h : OpenIn operation binding created j.records) : OpenIn operation binding created j'.records ∨
      Closes operation created (sessions.transition (.running j) event) := by
  cases event with
  | crash | exit => cases hj'
  | openAt =>
    obtain rfl := SessionHost.running.inj hj'
    exact .inl h
  | tryUnfence io =>
    obtain rfl := SessionHost.running.inj hj'
    exact .inl (h.congr (by rw [(j.written_tryUnfence io).records_eq]))
  | request request io =>
    obtain rfl := SessionHost.running.inj hj'
    obtain ⟨j', heffect, hwritten⟩ := commit_spec j request io
    rcases h.effect hs heffect with hopen | ⟨time, now, hnow, hrequest⟩
    · exact .inl (hopen.congr (by rw [hwritten.records_eq]))
    refine .inr ⟨j, time, io, now, rfl, hnow, ?_⟩
    rcases hrequest with rfl | ⟨rfl, hle⟩
    · exact .inl rfl
    · exact .inr ⟨rfl, hle⟩

end Held

/-! ### The file of a journal that is not fenced -/

/-- The journal has the records of its file. -/
def SessionJournal.Shown (j : SessionJournal) : Prop :=
  ∃ bytes s, j.file.visible = some bytes ∧ load bytes = some s ∧
    ∀ k : String, s.records[k]? = j.records[k]?

/-- Unless it is fenced, the journal has the records of its file. -/
def SessionJournal.Mirrors (j : SessionJournal) : Prop := j.fenced = false → j.Shown

section Mirror

variable {j j' : SessionJournal} {io : DiskWrite}

theorem shown_of_writeSnapshot (hs : j.snapshot.Sound 4)
    (h : j.writeSnapshot io = (j', .ok ())) : j'.Shown := by
  obtain ⟨bytes, hbody, hfile, -⟩ := file_of_writeSnapshot h
  obtain ⟨s, hload, -, hrecords⟩ := SessionSnapshot.load_body hs hbody
  have hwritten := written_writeSnapshot j io
  rw [h] at hwritten
  refine ⟨bytes, s, by rw [hfile]; rfl, hload, fun k => ?_⟩
  rw [hrecords k, hwritten.records_eq]
  rfl

theorem demote_eq_self {r : SessionRecord}
    (h : (r.state != .closed && r.state != .blockedUncertain) = false) : r.demote = r := by
  rw [SessionRecord.demote]
  by_cases hclosed : r.isClosed
  · rw [if_pos hclosed]
  rw [if_neg hclosed]
  have hne : ¬ r.state = .closed := by simpa [SessionRecord.isClosed] using hclosed
  have hstate : r.state = .blockedUncertain := by simpa [hne] using h
  rw [← hstate]

theorem mirrors_of_loaded (h : SessionJournal.loaded file = .ok (j, false)) : j.Mirrors := by
  intro _
  rw [SessionJournal.loaded] at h
  cases hfile : file.visible with
  | none =>
    simp only [hfile] at h
    cases (Prod.mk.inj (Except.ok.inj h)).2
  | some bytes =>
    simp only [hfile] at h
    split at h
    · cases h
    split at h
    · cases h
    next s hload =>
    obtain ⟨rfl, hsame⟩ := Prod.mk.inj (Except.ok.inj h)
    refine ⟨bytes, s, hfile, hload, fun k => ?_⟩
    rw [Std.TreeMap.getElem?_map]
    cases hr : s.records[k]? with
    | none => rfl
    | some =>
      have hmem := Std.TreeMap.mem_toList_iff_getElem?_eq_some.mpr hr
      have hstate := List.any_eq_false.mp hsame _ hmem
      rw [Option.map_some, demote_eq_self (by simpa using hstate)]

theorem SessionJournal.Effect.fenced_eq (h : j.Effect request j') : j'.fenced = j.fenced := by
  cases h <;> rfl

theorem mirrors_commit (h : j.Mirrors) (hs : j.snapshot.Sound 4) (request : SessionRequest)
    (io : DiskWrite) : (j.commit (j.planned request) io).1.Mirrors := by
  cases hplan : j.planned request with
  | error => exact h
  | ok move =>
    obtain ⟨heffect, hquiet⟩ := SessionJournal.effect_of_planned hplan
    cases move with
    | answer j' =>
      intro hfenced
      have hunfenced : j.fenced = false := heffect.fenced_eq.symm.trans hfenced
      obtain ⟨bytes, s, hfile, hload, hrecords⟩ := h hunfenced
      have hsame : j'.file = j.file := heffect.file_eq
      have hshown : j'.Shown :=
        ⟨bytes, s, hsame ▸ hfile, hload, fun k => (hrecords k).trans (hquiet k).symm⟩
      exact hshown
    | write j' =>
      simp only [commit]
      rcases hp : j'.persist io with ⟨j'', e | ⟨⟩⟩
      · intro hfenced
        rw [SessionJournal.fenced_of_persist_error hp] at hfenced
        cases hfenced
      · intro _
        exact shown_of_writeSnapshot (heffect.sound hs) (persist_eq_ok.mp hp)

theorem mirrors_tryUnfence (h : j.Mirrors) (hs : j.snapshot.Sound 4) (io : DiskWrite) :
    (j.tryUnfence io).1.Mirrors := by
  rw [tryUnfence]
  split
  · exact h
  next hfenced =>
  rcases hw : j.writeSnapshot io with ⟨j', e | ⟨⟩⟩
  · intro hunfenced
    -- the failed write left the fence in place
    have hkept : j'.fenced = j.fenced := by
      rcases SessionJournal.writeSnapshot_cases j io with hc | ⟨bytes, -, hc | hc⟩ <;>
        rw [hw] at hc <;> obtain ⟨rfl, -⟩ := Prod.mk.inj hc <;> rfl
    have hunfenced : j'.fenced = false := hunfenced
    rw [← hkept, hunfenced] at hfenced
    simp at hfenced
  · intro _
    have hshown : j'.Shown := shown_of_writeSnapshot hs hw
    exact hshown

/-- In every run the journal mirrors its file unless it is fenced. -/
theorem mirrors_step {s : SessionHost} (hkept : s.Kept) (h : ∀ j, s = .running j → j.Mirrors) :
    ∀ j, (s.step event).1 = .running j → j.Mirrors := by
  intro j hj
  cases s with
  | stopped file =>
    cases event with
    | openAt io =>
      simp only [SessionHost.step] at hj
      rcases openAt_cases file io with ⟨e, ho⟩ | ⟨j₀, changed, hload, ho⟩
      · rw [ho] at hj
        cases hj
      rcases ho with ⟨rfl, ho⟩ | ⟨j', e, hp, ho⟩ | ⟨j', hp, ho⟩ <;> rw [ho] at hj
      · obtain rfl := SessionHost.running.inj hj
        exact mirrors_of_loaded hload
      · cases hj
      · obtain rfl := SessionHost.running.inj hj
        intro _
        exact shown_of_writeSnapshot (sound_of_loaded hload) (persist_eq_ok.mp hp)
    | _ => cases hj
  | running j₀ =>
    cases event with
    | request request io =>
      obtain rfl := SessionHost.running.inj hj
      exact mirrors_commit (h j₀ rfl) hkept request io
    | tryUnfence io =>
      obtain rfl := SessionHost.running.inj hj
      exact mirrors_tryUnfence (h j₀ rfl) hkept io
    | openAt => exact h j hj
    | exit | crash => cases hj

end Mirror

/-! ### New reservations -/

/-- No other unfinished record of the table has the account or the unit of the binding, and no other
record at all has its idempotency key. -/
def FreeIn (binding : SessionBinding) (records : Std.TreeMap String SessionRecord) : Prop :=
  ∀ (k : String) (r : SessionRecord), records[k]? = some r → k ≠ binding.operationId →
    (r.state ≠ .closed → r.binding.account ≠ binding.account ∧
      r.binding.workloadUnit ≠ binding.workloadUnit) ∧
    r.binding.idempotencyKey ≠ binding.idempotencyKey

/-- A reader of this file finds no other record in the way of the binding. -/
def FileFree (binding : SessionBinding) (left : Option (List UInt8)) : Prop :=
  ∃ bytes s, left = some bytes ∧ load bytes = some s ∧ FreeIn binding s.records

/-- The step is a reservation that was answered with `New`, at this time. -/
def ReservesNew (binding : SessionBinding) (now : ℕ)
    (t : Execution.Transition SessionHost SessionEvent (Option (Except String SessionReply))) : Prop :=
  ∃ j time io, t.before = .running j ∧ j.effectiveTime time = .ok now ∧
    t.event = .request (.reserve binding time) io ∧ t.output = some (.ok (.reserved .new))

section New

variable {j : SessionJournal} {binding : SessionBinding} {time now : ℕ} {io : DiskWrite}

/-- A new reservation found nothing in its way and was written durably. -/
theorem commit_reserve_new (hnow : j.effectiveTime time = .ok now)
    (h : (j.commit (j.planned (.reserve binding time)) io).2 = .ok (.reserved .new)) :
    j.fenced = false ∧ j.records[binding.operationId]? = none ∧
    (∀ (k : String) (r : SessionRecord), j.records[k]? = some r → r.blocks binding = false) ∧
    j.Effect (.reserve binding time) (j.put binding.operationId (.reserve binding now) now) ∧
    (j.put binding.operationId (.reserve binding now) now).writeSnapshot io =
      ((j.commit (j.planned (.reserve binding time)) io).1, .ok ()) := by
  cases hmove : j.reserving binding time with
  | error =>
    simp [planned, hmove, Except.map, commit] at h
  | ok move =>
    have hplan : j.planned (.reserve binding time) = .ok (move.map .reserved) := by
      simp [planned, hmove, Except.map]
    rw [hplan] at h ⊢
    rcases SessionJournal.reserving_cases hmove with
      ⟨_, rfl⟩ | ⟨_, _, -, rfl⟩ | ⟨now', hnow', hvalid, hnone, hsize, hblocks, rfl⟩
    · simp [SessionMove.map, commit] at h
    · -- an existing reservation is never answered with `New`
      simp only [SessionMove.map, commit, Except.map] at h
      split at h
      all_goals cases h
    · obtain rfl := Except.ok.inj (hnow.symm.trans hnow')
      refine ⟨(SessionJournal.inTime_of_effectiveTime hnow).unfenced, hnone, hblocks,
        .reserve hnow hvalid hnone hsize hblocks, ?_⟩
      simp only [SessionMove.map, commit, Except.map] at h ⊢
      split at h
      · cases h
      next j'' hp => exact persist_eq_ok.mp hp

variable {records : Std.TreeMap String SessionRecord}

theorem freeIn_of_blocks
    (h : ∀ (k : String) (r : SessionRecord), records[k]? = some r → k ≠ binding.operationId →
      r.blocks binding = false) : FreeIn binding records := by
  intro k r hr hne
  have hblocks := h k r hr hne
  simp only [SessionRecord.blocks, SessionRecord.isClosed, Bool.or_eq_false_iff,
    Bool.and_eq_false_iff, Bool.not_eq_false', beq_iff_eq, beq_eq_false_iff_ne] at hblocks
  refine ⟨fun hopen => ?_, hblocks.1⟩
  rcases hblocks.2 with hclosed | hne
  · exact absurd hclosed hopen
  · exact hne

/-- The table with the new record is free for it. -/
theorem freeIn_put (h : ∀ (k : String) (r : SessionRecord), j.records[k]? = some r →
      r.blocks binding = false) :
    FreeIn binding (j.put binding.operationId (.reserve binding now) now).records := by
  apply freeIn_of_blocks
  intro k r hr hne
  rw [put, Table.getElem?_insert, if_neg hne] at hr
  exact h k r hr

theorem FreeIn.congr {records' : Std.TreeMap String SessionRecord} (h : FreeIn binding records)
    (heq : ∀ k : String, records'[k]? = records[k]?) : FreeIn binding records' := by
  intro k r hr
  rw [heq] at hr
  exact h k r hr

end New

/-- A new reservation is exclusive when it is answered, and is held from then on. -/
theorem exclusive_of_reservesNew {j : SessionJournal} {binding : SessionBinding} {now : ℕ}
    (hs : j.snapshot.Sound 4) (hmirrors : j.Mirrors)
    (h : ReservesNew binding now (sessions.transition (.running j) event)) :
    FileFree binding j.file.visible ∧
    (∀ left ∈ (sessions.step (.running j) event).1.file.values, FileFree binding left) ∧
    (sessions.step (.running j) event).1.Holds binding.operationId binding now := by
  obtain ⟨j₀, time, io, hbefore, hnow, hevent, houtput⟩ := h
  obtain rfl := SessionHost.running.inj hbefore
  obtain rfl : event = _ := hevent
  have hnew : (j.commit (j.planned (.reserve binding time)) io).2 = .ok (.reserved .new) :=
    Option.some.inj houtput
  obtain ⟨hfenced, hnone, hblocks, heffect, hwrite⟩ := commit_reserve_new hnow hnew
  have hsound := heffect.sound hs
  obtain ⟨bytes, hbody, hfile, -⟩ := file_of_writeSnapshot hwrite
  have hfile : (sessions.step (.running j) (.request (.reserve binding time) io)).1.file =
      .settled (some bytes) := hfile
  obtain ⟨s, hload, -, hrecords⟩ := SessionSnapshot.load_body hsound hbody
  have hopen : OpenIn binding.operationId binding now
      (j.put binding.operationId (.reserve binding now) now).records := by
    refine ⟨.reserve binding now, ?_, nofun, rfl, rfl⟩
    rw [put, Table.getElem?_insert, if_pos rfl]
  have hwritten := written_writeSnapshot
    (j.put binding.operationId (.reserve binding now) now) io
  rw [hwrite] at hwritten
  refine ⟨?_, ?_, ?_, ?_⟩
  · obtain ⟨bytes₀, s₀, hvisible, hload₀, hrecords₀⟩ := hmirrors hfenced
    have hfree : FreeIn binding j.records :=
      freeIn_of_blocks fun k r hr _ => hblocks k r hr
    exact ⟨bytes₀, s₀, hvisible, hload₀, hfree.congr hrecords₀⟩
  · rw [hfile]
    intro left hleft
    rw [List.mem_singleton.mp hleft]
    exact ⟨bytes, s, rfl, hload, (freeIn_put hblocks).congr hrecords⟩
  · rw [hfile]
    intro left hleft
    rw [List.mem_singleton.mp hleft]
    exact .of_body hopen hsound hbody
  · intro j' hj'
    obtain rfl := SessionHost.running.inj hj'
    exact hopen.congr (by rw [hwritten.records_eq])

theorem mirrors_of_run {j : SessionJournal} (h : sessions.Run run (.running j)) : j.Mirrors := by
  have hinv := h.invariant (P := fun s => s.Kept ∧ ∀ j, s = .running j → j.Mirrors)
    (by
      rintro s ⟨left, rfl⟩
      exact ⟨trivial, nofun⟩)
    fun s event hs _ => ⟨kept_step hs.1, mirrors_step hs.1 hs.2⟩
  exact hinv.2 j rfl

theorem kept_of_run {s : SessionHost} (h : sessions.Run run s) : s.Kept :=
  h.invariant (by rintro s ⟨left, rfl⟩; trivial) fun s event hs _ => kept_step hs

/-- In every run, whatever writes fail and whenever the broker stops: a reservation answered with
`New` is exclusive in the file before it and in every file a power loss may leave after it; a
record that is held stays held until it is reconciled with both effects confirmed or outlives its
maximum lifetime; and in memory, too, only these two end a record. -/
theorem sessions_exclusive {run : List (Execution.Transition _ _ _)} {s : SessionHost}
    (h : sessions.Run run s) : (∀ t ∈ run, ∀ binding now, ReservesNew binding now t →
      FileFree binding t.before.file.visible ∧
      (∀ left ∈ t.after.file.values, FileFree binding left) ∧
      t.after.Holds binding.operationId binding now) ∧
    (∀ before t after, run = before ++ t :: after → ∀ operation binding created,
      t.before.Holds operation binding created →
        s.Holds operation binding created ∨ ∃ u ∈ t :: after, Closes operation created u) ∧
    (∀ t ∈ run, ∀ j j', t.before = .running j → t.after = .running j' →
      ∀ operation binding created, OpenIn operation binding created j.records →
        OpenIn operation binding created j'.records ∨ Closes operation created t) := by
  refine ⟨h.forall_mem ?_, ?_, h.forall_mem ?_⟩
  · intro run s event hrun _ binding now hnew
    obtain ⟨j, _, _, hbefore, -⟩ := id hnew
    obtain rfl : s = .running j := hbefore
    exact exclusive_of_reservesNew (sessions_sound hrun) (mirrors_of_run hrun) hnew
  · rintro before t after rfl operation binding created hheld
    exact h.holds_until (fun run s event hrun hadm hs => holds_step (kept_of_run hrun) hadm hs) hheld
  · intro run s event hrun _ j j' hbefore hafter operation binding created hopen
    obtain rfl : s = .running j := hbefore
    exact openIn_step (sessions_sound hrun) hafter hopen

/-- The reservation of the sample run is exclusive and held. -/
theorem sessions_exclusive_reserved :
    ∃ t ∈ (sessions.play (.stopped (.settled none)) reservedSession).1,
      ReservesNew sampleSession 1000 t ∧ FileFree sampleSession t.before.file.visible ∧
      (∀ left ∈ t.after.file.values, FileFree sampleSession left) ∧
      t.after.Holds sampleSession.operationId sampleSession 1000 := by
  let opened := (sessions.step (.stopped (.settled none)) (.openAt .done)).1
  let t := sessions.transition opened (.request (.reserve sampleSession 1000) .done)
  have hmem : t ∈ (sessions.play (.stopped (.settled none)) reservedSession).1 := .tail _ (.head _)
  obtain ⟨j, hj, hready⟩ : ∃ j ∈ opened.journal?, (j.effectiveTime 1000 == .ok 1000) = true := by
    decide +kernel
  have houtput : t.output = some (.ok (.reserved .new)) := by decide +kernel
  have hnew : ReservesNew sampleSession 1000 t :=
    ⟨j, 1000, .done, SessionHost.journal?_eq_some.mp hj, eq_of_beq hready, rfl, houtput⟩
  exact ⟨t, hmem, hnew, (sessions_exclusive run_reservedSession).1 t hmem _ _ hnew⟩

/-- In every run, whatever writes fail, the table in memory is one that a reader accepts, and the
file in place holds just these records unless the journal is fenced. -/
theorem session_file_current {run : List (Execution.Transition _ _ _)} {j : SessionJournal}
    (h : sessions.Run run (.running j)) : j.snapshot.Sound 4 ∧ (j.fenced = false → j.Shown) :=
  ⟨sessions_sound h, mirrors_of_run h⟩

theorem session_file_current_reserved :
    ∃ j ∈ afterReservation.journal?, j.fenced = false ∧ j.Shown := by
  obtain ⟨j, hj, hopen⟩ : ∃ j ∈ afterReservation.journal?, j.fenced = false := by decide +kernel
  have hrunning := SessionHost.journal?_eq_some.mp hj
  exact ⟨j, hj, hopen, (session_file_current (hrunning ▸ run_reservedSession)).2 hopen⟩

end BlindPass.Broker
