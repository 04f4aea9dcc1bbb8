import BlindPass.Broker.SessionEffects
import BlindPass.Library.Execution

/-!
# Sessions across failures and restarts

A journal is opened from whatever file there is, serves requests, and stops. Any of its writes may
fail, before or after the new file is in place; a power loss brings back any file that was not yet
replaced durably. In every run the table in memory is sound, so every document the broker wrote can
be read again, and an account is held until a reconciliation confirmed both effects or the record
outlived its maximum lifetime.
-/

namespace BlindPass.Broker

/-! ### Writing -/

namespace SessionJournal

variable {j : SessionJournal} {io : DiskWrite}

theorem writeSnapshot_cases (j : SessionJournal) (io : DiskWrite) :
    j.writeSnapshot io = (j, .error sessionFailure) ∨ ∃ bytes, j.snapshot.body = some bytes ∧
      (j.writeSnapshot io = ({ j with file := j.file.write (some bytes) }, .error sessionFailure) ∨
        j.writeSnapshot io = ({ j with
          file := .settled (some bytes)
          persistedHighWaterMs := j.timeHighWaterMs }, .ok ())) := by
  rw [writeSnapshot]
  cases hbody : j.snapshot.body with
  | none => exact .inl rfl
  | some bytes =>
    cases io with
    | refused => exact .inl rfl
    | unsynced => exact .inr ⟨bytes, rfl, .inl rfl⟩
    | done => exact .inr ⟨bytes, rfl, .inr rfl⟩

/-- A journal with this table that was written, or could not be. -/
structure Written (j j' : SessionJournal) : Prop where
  records_eq : j'.records = j.records
  time_eq : j'.timeHighWaterMs = j.timeHighWaterMs
  file : ∀ left ∈ j'.file.values, left ∈ j.file.values ∨
    ∃ bytes, j.snapshot.body = some bytes ∧ left = some bytes

theorem Written.refl (j : SessionJournal) : j.Written j :=
  ⟨rfl, rfl, fun _ h => .inl h⟩

variable {j' : SessionJournal}

theorem Written.snapshot_eq (h : j.Written j') : j'.snapshot = j.snapshot := by
  rw [snapshot, snapshot, h.records_eq, h.time_eq]

theorem written_writeSnapshot (j : SessionJournal) (io : DiskWrite) :
    j.Written (j.writeSnapshot io).1 := by
  rcases writeSnapshot_cases j io with h | ⟨bytes, hbody, h | h⟩ <;> rw [h]
  · exact .refl j
  · refine ⟨rfl, rfl, fun left hleft => ?_⟩
    rcases List.mem_cons.mp hleft with rfl | hleft
    · exact .inr ⟨bytes, hbody, rfl⟩
    · exact .inl hleft
  · refine ⟨rfl, rfl, fun left hleft => ?_⟩
    exact .inr ⟨bytes, hbody, List.mem_singleton.mp hleft⟩

theorem written_persist (j : SessionJournal) (io : DiskWrite) : j.Written (j.persist io).1 := by
  have hwritten := written_writeSnapshot j io
  rw [persist]
  rcases h : j.writeSnapshot io with ⟨j', e | ⟨⟩⟩
  · rw [h] at hwritten
    exact ⟨hwritten.records_eq, hwritten.time_eq, hwritten.file⟩
  · rw [h] at hwritten
    exact hwritten

/-- After a write that succeeded, the document of the table is all a power loss may leave. -/
theorem file_of_writeSnapshot (h : j.writeSnapshot io = (j', .ok ())) :
    ∃ bytes, j.snapshot.body = some bytes ∧ j'.file = .settled (some bytes) ∧
      j'.fenced = j.fenced := by
  rcases writeSnapshot_cases j io with hw | ⟨bytes, hbody, hw | hw⟩ <;> rw [hw] at h
  · cases h
  · cases h
  · cases h
    exact ⟨bytes, hbody, rfl, rfl⟩

theorem persist_eq_ok : j.persist io = (j', .ok ()) ↔ j.writeSnapshot io = (j', .ok ()) := by
  rw [persist]
  rcases h : j.writeSnapshot io with ⟨j'', e | ⟨⟩⟩ <;> simp

theorem fenced_of_persist_error {e : String} (h : j.persist io = (j', .error e)) :
    j'.fenced = true := by
  rw [persist] at h
  rcases hw : j.writeSnapshot io with ⟨j'', e' | ⟨⟩⟩ <;> rw [hw] at h
  · cases h
    rfl
  · cases (Prod.mk.inj h).2

/-! ### Requests -/

theorem Effect.file_eq {request : SessionRequest} (h : j.Effect request j') : j'.file = j.file := by
  cases h <;> rfl

/-- A request takes effect on the table, and that table is written or could not be. -/
theorem commit_spec (j : SessionJournal) (request : SessionRequest) (io : DiskWrite) :
    ∃ j', j.Effect request j' ∧ j'.Written (j.commit (j.planned request) io).1 := by
  cases hplan : j.planned request with
  | error => exact ⟨j, .still, .refl j⟩
  | ok move =>
    have heffect := (effect_of_planned hplan).1
    refine ⟨move.journal, heffect, ?_⟩
    cases move with
    | answer j' => exact .refl j'
    | write j' =>
      have hwritten := written_persist j' io
      simp only [commit]
      rcases hp : j'.persist io with ⟨j'', e | ⟨⟩⟩ <;> rw [hp] at hwritten <;> exact hwritten

end SessionJournal

/-! ### The machine -/

/-- A broker's host: the state file alone, or a journal opened from it. -/
inductive SessionHost
  | stopped (file : Storage.Durable (Option (List UInt8)))
  | running (j : SessionJournal)

def SessionHost.file : SessionHost → Storage.Durable (Option (List UInt8))
  | stopped file => file
  | running j => j.file

inductive SessionEvent
  | openAt (io : DiskWrite)
  | request (request : SessionRequest) (io : DiskWrite)
  | tryUnfence (io : DiskWrite)
  | exit
  /-- A power loss, and the file it leaves. -/
  | crash (left : Option (List UInt8))

/-- One journal at a time is open: its lock is held until it stops. -/
def SessionHost.step (s : SessionHost) (event : SessionEvent) :
    SessionHost × Option (Except String SessionReply) :=
  match s, event with
  | stopped file, .openAt io =>
    match SessionJournal.openAt file io with
    | (file', .error e) => (stopped file', some (.error e))
    | (_, .ok j) => (running j, some (.ok .done))
  | running j, .request request io =>
    ((running (j.commit (j.planned request) io).1),
      some (j.commit (j.planned request) io).2)
  | running j, .tryUnfence io => (running (j.tryUnfence io).1, none)
  | running j, .exit => (stopped j.file, none)
  | _, .crash left => (stopped (.settled left), none)
  | s, _ => (s, none)

/-- A host that starts with any file, served in any order. -/
def sessions : Execution.Machine SessionHost SessionEvent (Option (Except String SessionReply)) where
  Start s := ∃ left, s = .stopped (.settled left)
  Admits s event :=
    match event with
    | .crash left => left ∈ s.file.values
    | _ => True
  step := SessionHost.step

/-! ### The table in memory is sound -/

/-- The table of a running journal is sound. -/
def SessionHost.Kept : SessionHost → Prop
  | stopped _ => True
  | running j => j.snapshot.Sound 4

variable {file : Storage.Durable (Option (List UInt8))}

theorem sound_of_loaded {j : SessionJournal} {changed : Bool}
    (h : SessionJournal.loaded file = .ok (j, changed)) : j.snapshot.Sound 4 := by
  rw [SessionJournal.loaded] at h
  cases hfile : file.visible with
  | none =>
    simp only [hfile] at h
    cases h
    exact { SessionSnapshot.SoundRecords.empty with
      bounded := zero_le
      timely := zero_le }
  | some =>
    simp only [hfile] at h
    split at h
    · cases h
    split at h
    · cases h
    next s hload =>
    cases h
    obtain ⟨version, hsound⟩ := SessionSnapshot.sound_of_load hload
    exact hsound.demote

theorem openAt_cases (file : Storage.Durable (Option (List UInt8))) (io : DiskWrite) :
    (∃ e, SessionJournal.openAt file io = (file, .error e)) ∨
    ∃ j changed, SessionJournal.loaded file = .ok (j, changed) ∧
      (changed = false ∧ SessionJournal.openAt file io = (file, .ok j) ∨
        (∃ j' e, j.persist io = (j', .error e) ∧
          SessionJournal.openAt file io = (j'.file, .error e)) ∨
        ∃ j', j.persist io = (j', .ok ()) ∧ SessionJournal.openAt file io = (j'.file, .ok j')) := by
  rw [SessionJournal.openAt]
  cases hload : SessionJournal.loaded file with
  | error e => exact .inl ⟨e, rfl⟩
  | ok opened =>
    obtain ⟨j, changed⟩ := opened
    refine .inr ⟨j, changed, rfl, ?_⟩
    cases changed with
    | false => exact .inl ⟨rfl, rfl⟩
    | true =>
      rcases hp : j.persist io with ⟨j', e | ⟨⟩⟩
      · exact .inr (.inl ⟨j', e, rfl, by simp [hp]⟩)
      · exact .inr (.inr ⟨j', rfl, by simp [hp]⟩)

/-- In every run the table of a running journal is sound. -/
theorem kept_step {s : SessionHost} {event : SessionEvent} (h : s.Kept) :
    (s.step event).1.Kept := by
  cases s with
  | stopped file =>
    cases event with
    | openAt io =>
      simp only [SessionHost.step]
      rcases openAt_cases file io with ⟨e, ho⟩ | ⟨j, changed, hload, ho⟩
      · rw [ho]
        trivial
      have hsound := sound_of_loaded hload
      rcases ho with ⟨-, ho⟩ | ⟨j', e, -, ho⟩ | ⟨j', hp, ho⟩ <;> rw [ho]
      · exact hsound
      · trivial
      have hwritten := SessionJournal.written_persist j io
      rw [hp] at hwritten
      show j'.snapshot.Sound 4
      rw [hwritten.snapshot_eq]
      exact hsound
    | _ => trivial
  | running j =>
    cases event with
    | request request io =>
      obtain ⟨j', heffect, hwritten⟩ := SessionJournal.commit_spec j request io
      show (j.commit (j.planned request) io).1.snapshot.Sound 4
      rw [hwritten.snapshot_eq]
      exact heffect.sound h
    | tryUnfence io =>
      show (j.tryUnfence io).1.snapshot.Sound 4
      rw [SessionJournal.tryUnfence]
      split
      · exact h
      have hwritten := SessionJournal.written_writeSnapshot j io
      rcases hw : j.writeSnapshot io with ⟨j', e | ⟨⟩⟩ <;> rw [hw] at hwritten
      all_goals
        show j'.snapshot.Sound 4
        rw [hwritten.snapshot_eq]
        exact h
    | openAt => exact h
    | exit | crash => trivial

theorem sessions_sound {run : List (Execution.Transition _ _ _)} {j : SessionJournal}
    (h : sessions.Run run (.running j)) : j.snapshot.Sound 4 := by
  have hkept : SessionHost.Kept (.running j) := h.invariant
    (by rintro s ⟨left, rfl⟩; trivial) (fun s event hs _ => kept_step hs)
  exact hkept

theorem loaded_of_load {bytes : List UInt8} {s : SessionSnapshot}
    (hfile : file.visible = some bytes) (hlength : bytes.length ≤ maxSessionBytes)
    (hload : SessionSnapshot.load bytes = some s) :
    ∃ opened, SessionJournal.loaded file = .ok opened := by
  rw [SessionJournal.loaded, hfile]
  simp only [if_neg (not_lt.mpr hlength), hload]
  exact ⟨_, rfl⟩

/-- Whatever a journal wrote is read back: the same records and the same time. A restart does not
refuse it. -/
theorem load_written {run : List (Execution.Transition _ _ _)} {j j' : SessionJournal}
    {io : DiskWrite} (h : sessions.Run run (.running j))
    (hwrite : j.writeSnapshot io = (j', .ok ())) :
    ∃ bytes s, j'.file.visible = some bytes ∧ SessionSnapshot.load bytes = some s ∧
      s.timeHighWaterMs = j.timeHighWaterMs ∧ (∀ k : String, s.records[k]? = j.records[k]?) ∧
      ∃ opened, SessionJournal.loaded j'.file = .ok opened := by
  obtain ⟨bytes, hbody, hfile, -⟩ := SessionJournal.file_of_writeSnapshot hwrite
  obtain ⟨s, hload, htime, hrecords⟩ := SessionSnapshot.load_body (sessions_sound h) hbody
  have hvisible : j'.file.visible = some bytes := by rw [hfile]; rfl
  have hlength := (SessionSnapshot.body_eq_some.mp hbody).2
  exact ⟨bytes, s, hvisible, hload, htime, hrecords, loaded_of_load hvisible hlength hload⟩

/-- A binding for samples. -/
def sampleSession : SessionBinding where
  nodeId := "node-1"
  workloadId := "workload-1"
  operationId := "operation-1"
  idempotencyKey := "key-1"
  requestEventKey := some "request-event-0001"
  workloadUnit := "agent.service"
  workloadInvocation := "0123456789abcdef0123456789abcdef"
  resource := "dashboard"
  recipeFingerprint := "0123456789abcdef0123456789abcdef0123456789abcdef0123456789abcdef"
  account := "svc-agent"

/-- A fresh journal with one reservation. -/
def reservedSession : List SessionEvent :=
  [.openAt .done, .request (.reserve sampleSession 1000) .done]

/-- The host after these events, from no file. -/
def afterReservation : SessionHost := (sessions.play (.stopped (.settled none)) reservedSession).2

theorem run_reservedSession :
    sessions.Run (sessions.play (.stopped (.settled none)) reservedSession).1 afterReservation := by
  have hstart : sessions.Start (.stopped (.settled none)) := ⟨none, rfl⟩
  have hadmits : sessions.AdmitsAll (.stopped (.settled none)) reservedSession :=
    ⟨trivial, trivial, trivial⟩
  exact Execution.Machine.run_play hstart hadmits

/-- The journal of a running host. -/
def SessionHost.journal? : SessionHost → Option SessionJournal
  | stopped _ => none
  | running j => some j

theorem SessionHost.journal?_eq_some {s : SessionHost} {j : SessionJournal} :
    s.journal? = some j ↔ s = .running j := by
  cases s <;> simp [journal?]

theorem load_written_reserved : ∃ j j', afterReservation = .running j ∧
    j.writeSnapshot .done = (j', .ok ()) ∧ ∃ bytes s, j'.file.visible = some bytes ∧
      SessionSnapshot.load bytes = some s ∧ s.timeHighWaterMs = j.timeHighWaterMs ∧
      (∀ k : String, s.records[k]? = j.records[k]?) ∧
      ∃ opened, SessionJournal.loaded j'.file = .ok opened := by
  obtain ⟨j, hj, hok⟩ : ∃ j ∈ afterReservation.journal?, (j.writeSnapshot .done).2.isOk = true := by
    decide +kernel
  have hrunning := SessionHost.journal?_eq_some.mp hj
  have hwrite : j.writeSnapshot .done = ((j.writeSnapshot .done).1, .ok ()) := by
    rcases hw : j.writeSnapshot .done with ⟨j', e | ⟨⟩⟩
    · rw [hw] at hok
      cases hok
    · rfl
  exact ⟨j, _, hrunning, hwrite, load_written (hrunning ▸ run_reservedSession) hwrite⟩

end BlindPass.Broker
