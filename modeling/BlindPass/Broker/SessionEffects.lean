import BlindPass.Broker.SessionRoundTrip

/-!
# What the operations of the session journal do

Every operation first settles the time and then changes the table in one of a few ways: it moves
the time on, files a new record, takes one record a step further, closes records, or forgets
closed ones. All of them keep the table sound.
-/

namespace BlindPass.Broker

open Transaction (bind_eq_ok map_eq_ok)

/-! ### Requests -/

inductive SessionRequest
  | reserve (binding : SessionBinding) (time : ℕ)
  | recordHelper (operation unit invocation : String) (time : ℕ)
  | recordLogin (operation : String) (originalDeadlineMs : ℕ) (handle : RevokeHandle) (time : ℕ)
  | activate (operation : String) (receipt : SessionReceipt) (time : ℕ)
  | beginRevoke (operation : String) (time : ℕ)
  | reconcile (operation : String) (websiteRevoked verifiedProcessesTerminated : Bool) (time : ℕ)
  | releaseExpired (time : ℕ)
  | prune (time : ℕ)
  deriving DecidableEq

inductive SessionReply
  | reserved (reservation : Reservation)
  | done
  | released (sessions : List ReleasedSession)
  | pruned (count : ℕ)
  deriving DecidableEq

/-- The same move with another answer. -/
def SessionMove.map {α β : Type} (f : α → β) : SessionMove α → SessionMove β
  | answer j a => answer j (f a)
  | write j a => write j (a.map f)

@[simp] theorem SessionMove.journal_map {α β : Type} (f : α → β) (move : SessionMove α) :
    (move.map f).journal = move.journal := by
  cases move <;> rfl

/-- The operation up to its write. -/
def SessionJournal.planned (j : SessionJournal) :
    SessionRequest → Except String (SessionMove SessionReply)
  | .reserve binding time => (j.reserving binding time).map (.map .reserved)
  | .recordHelper operation unit invocation time =>
    (j.recordingHelper operation unit invocation time).map (.map fun _ => .done)
  | .recordLogin operation deadline handle time =>
    (j.recordingLogin operation deadline handle time).map (.map fun _ => .done)
  | .activate operation receipt time =>
    (j.activating operation receipt time).map (.map fun _ => .done)
  | .beginRevoke operation time => (j.beginningRevoke operation time).map (.map fun _ => .done)
  | .reconcile operation website processes time =>
    (j.reconciling operation website processes time).map (.map fun _ => .done)
  | .releaseExpired time => (j.releasingExpired time).map (.map .released)
  | .prune time => (j.pruning time).map (.map .pruned)

/-! ### Steps of a record -/

/-- An unfinished record one step further, at a time. -/
inductive SessionRecord.Advances (now : ℕ) (r : SessionRecord) : SessionRecord → Prop
  | helper {unit invocation : String} : r.state = .reserved → r.revokeHandle = none →
      validHelperUnit unit → validInvocation invocation →
      Advances now r { r with helperUnit := some unit, helperInvocation := some invocation }
  | login {deadline : ℕ} {handle : RevokeHandle} : r.state = .reserved → r.helperUnit.isSome →
      handle.isValid r.binding.account → now < deadline → deadline ≤ maxSessionTime →
      Advances now r { r with originalDeadlineMs := some deadline, revokeHandle := some handle }
  | activate {unit invocation : String} : r.state = .reserved → r.helperUnit.isSome →
      r.revokeHandle.isSome → validSessionUnit unit → validInvocation invocation →
      Advances now r { r with
        browserUnit := some unit, browserInvocation := some invocation, state := .active }
  | revoke : r.isClosed = false → Advances now r { r with state := .revoking }
  | block : r.isClosed = false → Advances now r { r with state := .blockedUncertain }

namespace SessionRecord

variable {now highWater : ℕ} {r r' : SessionRecord}

theorem isClosed_of_state {state : SessionState} (h : r.state = state) (hne : state ≠ .closed) :
    r.isClosed = false := by
  simp [isClosed, h, hne]

namespace Advances

theorem binding_eq (h : r.Advances now r') : r'.binding = r.binding := by
  cases h <;> rfl

theorem createdAtMs_eq (h : r.Advances now r') : r'.createdAtMs = r.createdAtMs := by
  cases h <;> rfl

theorem open_before (h : r.Advances now r') : r.isClosed = false := by
  cases h with
  | helper hstate => exact isClosed_of_state hstate nofun
  | login hstate => exact isClosed_of_state hstate nofun
  | activate hstate => exact isClosed_of_state hstate nofun
  | revoke hopen => exact hopen
  | block hopen => exact hopen

theorem open_after (h : r.Advances now r') : r'.isClosed = false := by
  cases h with
  | helper hstate => exact isClosed_of_state hstate nofun
  | login hstate => exact isClosed_of_state hstate nofun
  | activate | revoke | block => rfl

end Advances

theorem isConsistent_mono {version : ℕ} (h : r.isConsistent highWater version)
    (hle : highWater ≤ now) : r.isConsistent now version := by
  simp only [isConsistent, hasSoundTimes, Bool.and_eq_true] at h ⊢
  obtain ⟨⟨⟨⟨⟨hzero, hcreated⟩, hdeadline⟩, hclosed⟩, hunits⟩, hstate⟩ := h
  refine ⟨⟨⟨⟨⟨hzero, ?_⟩, hdeadline⟩, ?_⟩, hunits⟩, hstate⟩
  · simp only [decide_eq_true_eq] at hcreated ⊢
    omega
  cases htime : r.closedAtMs with
  | none => rfl
  | some =>
    simp only [htime, Option.all_some, Bool.and_eq_true, decide_eq_true_eq] at hclosed ⊢
    omega

theorem closedAtMs_eq_none {version : ℕ} (hopen : r.isClosed = false) (h : r.fitsState version) :
    r.closedAtMs = none := by
  simp only [fitsState, hopen, Bool.and_eq_true, beq_iff_eq] at h
  exact Option.isSome_eq_false_iff.mp h.1.symm |> Option.isNone_iff_eq_none.mp

theorem Advances.isConsistent (h : r.Advances now r') (hr : r.isConsistent now 4) :
    r'.isConsistent now 4 := by
  have hopen := h.open_before
  simp only [SessionRecord.isConsistent, Bool.and_eq_true] at hr ⊢
  obtain ⟨⟨htimes, hunits⟩, hstate⟩ := hr
  have hnone := closedAtMs_eq_none hopen hstate
  cases h with
  | helper | activate =>
    refine ⟨⟨htimes, ?_⟩, ?_⟩
    · simp_all [hasSoundUnits]
    · simp_all [fitsState, isClosed]
  | login hreserved hhelper hhandle hnow hdeadline =>
    refine ⟨⟨?_, hunits⟩, ?_⟩
    · simp only [hasSoundTimes, Bool.and_eq_true, decide_eq_true_eq, Option.all_some] at htimes ⊢
      obtain ⟨⟨⟨hzero, hcreated⟩, -⟩, hclosed⟩ := htimes
      exact ⟨⟨⟨hzero, hcreated⟩, by omega, hdeadline⟩, hclosed⟩
    · simp_all [fitsState, isClosed]
  | revoke | block =>
    refine ⟨⟨htimes, hunits⟩, ?_⟩
    simp_all [fitsState, isClosed]

theorem isConsistent_reserve (binding : SessionBinding) (hnow : 0 < now) :
    (reserve binding now).isConsistent now 4 := by
  simp [isConsistent, hasSoundTimes, hasSoundUnits, fitsState, reserve, isClosed]
  omega

theorem isConsistent_close (hr : r.isConsistent now 4) : (r.close now).isConsistent now 4 := by
  simp only [isConsistent, hasSoundTimes, Bool.and_eq_true, decide_eq_true_eq] at hr ⊢
  obtain ⟨⟨⟨⟨⟨hzero, hcreated⟩, hdeadline⟩, -⟩, -⟩, -⟩ := hr
  refine ⟨⟨⟨⟨⟨hzero, hcreated⟩, hdeadline⟩, ?_⟩, rfl⟩, rfl⟩
  simp [close, hcreated]

@[simp] theorem close_binding (r : SessionRecord) (now : ℕ) : (r.close now).binding = r.binding := rfl

end SessionRecord

/-! ### Effects -/

namespace SessionJournal

/-- The journal may act, and does so at this time. -/
structure InTime (j : SessionJournal) (now : ℕ) : Prop where
  unfenced : j.fenced = false
  pos : 0 < now
  later : j.timeHighWaterMs ≤ now
  timely : now ≤ maxSessionTime ∨ now = j.timeHighWaterMs

variable {j : SessionJournal}

theorem inTime_of_effectiveTime {time now : ℕ} (h : j.effectiveTime time = .ok now) :
    j.InTime now := by
  rw [effectiveTime] at h
  by_cases hbad : (j.fenced || time == 0 || decide (maxSessionTime < time)) = true
  · rw [if_pos hbad] at h
    cases h
  rw [if_neg hbad] at h
  simp only [Bool.or_eq_true, beq_iff_eq, decide_eq_true_eq, not_or, Bool.not_eq_true] at hbad
  obtain ⟨⟨hfenced, hzero⟩, htime⟩ := hbad
  by_cases hlater : j.timeHighWaterMs ≤ time
  · rw [if_pos hlater] at h
    cases h
    exact ⟨hfenced, Nat.pos_of_ne_zero hzero, hlater, .inl (not_lt.mp htime)⟩
  rw [if_neg hlater] at h
  by_cases hnear : j.timeHighWaterMs - time ≤ timeRegressionToleranceMs
  · rw [if_pos hnear] at h
    cases h
    exact ⟨hfenced, by omega, le_rfl, .inr rfl⟩
  · rw [if_neg hnear] at h
    cases h

/-- What a request does to the journal in memory before it writes. -/
inductive Effect (j : SessionJournal) : SessionRequest → SessionJournal → Prop
  | still {request : SessionRequest} : Effect j request j
  | touch {request : SessionRequest} {now : ℕ} : j.InTime now →
      Effect j request { j with timeHighWaterMs := now }
  | reserve {binding : SessionBinding} {time now : ℕ} : j.effectiveTime time = .ok now →
      binding.isValid → j.records[binding.operationId]? = none →
      j.records.size < maxSessionRecords →
      (∀ (k : String) (r : SessionRecord), j.records[k]? = some r → r.blocks binding = false) →
      Effect j (.reserve binding time) (j.put binding.operationId (.reserve binding now) now)
  | advance {request : SessionRequest} {operation : String} {r r' : SessionRecord} {now : ℕ} :
      j.InTime now → j.records[operation]? = some r → r.Advances now r' →
      Effect j request (j.put operation r' now)
  | close {operation : String} {r : SessionRecord} {time now : ℕ} :
      j.effectiveTime time = .ok now → j.records[operation]? = some r →
      Effect j (.reconcile operation true true time) (j.put operation (r.close now) now)
  | release {time now : ℕ} : j.effectiveTime time = .ok now →
      Effect j (.releaseExpired time) { j with
        records := Table.updateWhere j.records (fun _ r => isDue now r) fun r => r.close now
        timeHighWaterMs := now }
  | prune {time now : ℕ} : j.effectiveTime time = .ok now →
      Effect j (.prune time) { j with
        records := j.records.filter fun _ r => !isStale now r
        timeHighWaterMs := now }

/-- A move that answers without a write leaves the records as they are. -/
def Quiet {α : Type} (j : SessionJournal) : SessionMove α → Prop
  | .answer j' _ => ∀ k : String, j'.records[k]? = j.records[k]?
  | .write _ _ => True

theorem quiet_map {α β : Type} {f : α → β} {move : SessionMove α} (h : j.Quiet move) :
    j.Quiet (move.map f) := by
  cases move <;> exact h

theorem require_eq_ok {condition : Bool} {reason : String} {u : Unit} :
    require condition reason = .ok u ↔ condition = true := by
  cases condition <;> simp [require]

variable {r : SessionRecord} {binding : SessionBinding}

theorem find_eq_ok {operation : String} :
    j.find operation = .ok r ↔ j.records[operation]? = some r := by
  cases h : j.records[operation]? <;> simp [find, h]

section Operations

variable {time : ℕ} {operation : String}

/-- A reservation is new, or it finds the record it made before. -/
theorem reserving_cases {move : SessionMove Reservation} (h : j.reserving binding time = .ok move) :
    (∃ state, move = .answer j (.existing state)) ∨ (∃ state now, j.InTime now ∧
      move = .write { j with timeHighWaterMs := now } (.ok (.existing state))) ∨
    ∃ now, j.effectiveTime time = .ok now ∧ binding.isValid ∧
      j.records[binding.operationId]? = none ∧ j.records.size < maxSessionRecords ∧
      (∀ (k : String) (r : SessionRecord), j.records[k]? = some r → r.blocks binding = false) ∧
      move = .write (j.put binding.operationId (.reserve binding now) now) (.ok .new) := by
  obtain ⟨now, hnow, h⟩ := bind_eq_ok.mp h
  obtain ⟨_, hvalid, h⟩ := bind_eq_ok.mp h
  cases hfound : j.records[binding.operationId]? with
  | some =>
    simp only [hfound] at h
    obtain ⟨_, -, h⟩ := bind_eq_ok.mp h
    by_cases hlater : j.timeHighWaterMs < now
    · rw [if_pos hlater] at h
      exact .inr (.inl ⟨_, now, inTime_of_effectiveTime hnow, (Except.ok.inj h).symm⟩)
    · rw [if_neg hlater] at h
      exact .inl ⟨_, (Except.ok.inj h).symm⟩
  | none =>
    simp only [hfound] at h
    obtain ⟨_, hsize, h⟩ := bind_eq_ok.mp h
    obtain ⟨_, hblocks, h⟩ := bind_eq_ok.mp h
    rw [require_eq_ok] at hvalid hsize hblocks
    refine .inr (.inr ⟨now, hnow, hvalid, rfl, by simpa using hsize, fun k r hr => ?_,
      (Except.ok.inj h).symm⟩)
    have hnone : j.records.toList.any (fun e => e.2.blocks binding) = false := by simpa using hblocks
    have hmem := Std.TreeMap.mem_toList_iff_getElem?_eq_some.mpr hr
    simpa using List.any_eq_false.mp hnone _ hmem

theorem effect_of_reserving {move : SessionMove Reservation}
    (h : j.reserving binding time = .ok move) :
    j.Effect (.reserve binding time) move.journal ∧ j.Quiet move := by
  rcases reserving_cases h with
    ⟨_, rfl⟩ | ⟨_, now, htime, rfl⟩ | ⟨now, hnow, hvalid, hnone, hsize, hblocks, rfl⟩
  · exact ⟨.still, fun _ => rfl⟩
  · exact ⟨.touch htime, trivial⟩
  · exact ⟨.reserve hnow hvalid hnone hsize hblocks, trivial⟩

variable {move : SessionMove Unit}

theorem effect_of_recordingHelper {unit invocation : String}
    (h : j.recordingHelper operation unit invocation time = .ok move) :
    j.Effect (.recordHelper operation unit invocation time) move.journal ∧ j.Quiet move := by
  obtain ⟨now, hnow, h⟩ := bind_eq_ok.mp h
  obtain ⟨_, hvalid, h⟩ := bind_eq_ok.mp h
  obtain ⟨r, hr, h⟩ := bind_eq_ok.mp h
  obtain ⟨_, hpending, h⟩ := bind_eq_ok.mp h
  cases h
  rw [require_eq_ok] at hvalid hpending
  simp only [Bool.and_eq_true, beq_iff_eq, Option.isNone_iff_eq_none, decide_eq_true_eq] at hvalid hpending
  exact ⟨.advance (inTime_of_effectiveTime hnow) (find_eq_ok.mp hr)
    (.helper hpending.1.1.1 hpending.1.2 hvalid.1 hvalid.2), trivial⟩

theorem effect_of_recordingLogin {deadline : ℕ} {handle : RevokeHandle}
    (h : j.recordingLogin operation deadline handle time = .ok move) :
    j.Effect (.recordLogin operation deadline handle time) move.journal ∧ j.Quiet move := by
  obtain ⟨now, hnow, h⟩ := bind_eq_ok.mp h
  obtain ⟨r, hr, h⟩ := bind_eq_ok.mp h
  obtain ⟨_, hpending, h⟩ := bind_eq_ok.mp h
  obtain ⟨_, hhandle, h⟩ := bind_eq_ok.mp h
  obtain ⟨_, hdeadline, h⟩ := bind_eq_ok.mp h
  cases h
  rw [require_eq_ok] at hpending hhandle hdeadline
  simp only [Bool.and_eq_true, beq_iff_eq, Option.isNone_iff_eq_none, decide_eq_true_eq]
    at hpending hdeadline
  exact ⟨.advance (inTime_of_effectiveTime hnow) (find_eq_ok.mp hr)
    (.login hpending.1.1 hpending.2 hhandle hdeadline.1.1.1 hdeadline.1.1.2), trivial⟩

theorem effect_of_activating {receipt : SessionReceipt}
    (h : j.activating operation receipt time = .ok move) :
    j.Effect (.activate operation receipt time) move.journal ∧ j.Quiet move := by
  obtain ⟨now, hnow, h⟩ := bind_eq_ok.mp h
  obtain ⟨r, hr, h⟩ := bind_eq_ok.mp h
  obtain ⟨_, hreserved, h⟩ := bind_eq_ok.mp h
  obtain ⟨_, -, h⟩ := bind_eq_ok.mp h
  obtain ⟨_, hreceipt, h⟩ := bind_eq_ok.mp h
  cases h
  rw [require_eq_ok] at hreserved hreceipt
  simp only [Bool.and_eq_true, beq_iff_eq, decide_eq_true_eq] at hreserved hreceipt
  obtain ⟨⟨⟨⟨⟨⟨hunit, hhelper⟩, hinvocation⟩, -⟩, hhandle⟩, -⟩, -⟩ := hreceipt
  exact ⟨.advance (inTime_of_effectiveTime hnow) (find_eq_ok.mp hr)
    (.activate hreserved hhelper (by rw [hhandle]; rfl) hunit hinvocation), trivial⟩

theorem effect_of_beginningRevoke (h : j.beginningRevoke operation time = .ok move) :
    j.Effect (.beginRevoke operation time) move.journal ∧ j.Quiet move := by
  obtain ⟨now, hnow, h⟩ := bind_eq_ok.mp h
  obtain ⟨r, hr, h⟩ := bind_eq_ok.mp h
  by_cases hclosed : r.isClosed
  · rw [if_pos hclosed] at h
    cases h
    exact ⟨.still, fun _ => rfl⟩
  · rw [if_neg hclosed] at h
    cases h
    have hopen : r.isClosed = false := by simpa using hclosed
    exact ⟨.advance (inTime_of_effectiveTime hnow) (find_eq_ok.mp hr) (.revoke hopen), trivial⟩

theorem effect_of_reconciling {website processes : Bool}
    (h : j.reconciling operation website processes time = .ok move) :
    j.Effect (.reconcile operation website processes time) move.journal ∧ j.Quiet move := by
  obtain ⟨now, hnow, h⟩ := bind_eq_ok.mp h
  obtain ⟨r, hr, h⟩ := bind_eq_ok.mp h
  by_cases hclosed : r.isClosed
  · rw [if_pos hclosed] at h
    cases h
    exact ⟨.still, fun _ => rfl⟩
  rw [if_neg hclosed] at h
  by_cases hpartial : (!website || !processes) = true
  · rw [if_pos hpartial] at h
    cases h
    have hopen : r.isClosed = false := by simpa using hclosed
    exact ⟨.advance (inTime_of_effectiveTime hnow) (find_eq_ok.mp hr) (.block hopen), trivial⟩
  · rw [if_neg hpartial] at h
    cases h
    obtain ⟨rfl, rfl⟩ : website = true ∧ processes = true := by simpa using hpartial
    exact ⟨.close hnow (find_eq_ok.mp hr), trivial⟩

theorem effect_of_releasingExpired {move : SessionMove (List ReleasedSession)}
    (h : j.releasingExpired time = .ok move) :
    j.Effect (.releaseExpired time) move.journal ∧ j.Quiet move := by
  obtain ⟨now, hnow, h⟩ := bind_eq_ok.mp h
  dsimp only at h
  split at h
  · cases h
    exact ⟨.touch (inTime_of_effectiveTime hnow), fun _ => rfl⟩
  · cases h
    exact ⟨.release hnow, trivial⟩

theorem effect_of_pruning {move : SessionMove ℕ} (h : j.pruning time = .ok move) :
    j.Effect (.prune time) move.journal ∧ j.Quiet move := by
  obtain ⟨now, hnow, h⟩ := bind_eq_ok.mp h
  dsimp only at h
  split at h
  · cases h
    exact ⟨.prune hnow, trivial⟩
  next hidle =>
  cases h
  refine ⟨.prune hnow, fun k => ?_⟩
  -- nothing was removed, so every record was kept
  have hle := Std.TreeMap.size_filter_le_size (t := j.records) (f := fun _ r => !isStale now r)
  have hsize : (j.records.filter fun _ r => !isStale now r).size = j.records.size := by
    simp only [Bool.or_eq_true, decide_eq_true_eq, not_or] at hidle
    omega
  exact Table.getElem?_filter_of_size_eq hsize

end Operations

theorem effect_of_planned {request : SessionRequest} {move : SessionMove SessionReply}
    (h : j.planned request = .ok move) : j.Effect request move.journal ∧ j.Quiet move := by
  cases request <;> obtain ⟨move, hmove, rfl⟩ := map_eq_ok.mp h <;>
    rw [SessionMove.journal_map]
  case reserve => exact (effect_of_reserving hmove).imp id quiet_map
  case recordHelper => exact (effect_of_recordingHelper hmove).imp id quiet_map
  case recordLogin => exact (effect_of_recordingLogin hmove).imp id quiet_map
  case activate => exact (effect_of_activating hmove).imp id quiet_map
  case beginRevoke => exact (effect_of_beginningRevoke hmove).imp id quiet_map
  case reconcile => exact (effect_of_reconciling hmove).imp id quiet_map
  case releaseExpired => exact (effect_of_releasingExpired hmove).imp id quiet_map
  case prune => exact (effect_of_pruning hmove).imp id quiet_map

/-! ### The table stays sound -/

open SessionSnapshot (Sound SoundRecords)

section Sound

variable {now : ℕ}

theorem InTime.le_maxSessionTime (h : j.InTime now) (hs : j.snapshot.Sound 4) :
    now ≤ maxSessionTime := by
  rcases h.timely with hle | rfl
  · exact hle
  · exact hs.timely

theorem isConsistent_of_sound {k : String} (hs : j.snapshot.Sound 4) (h : j.InTime now)
    (hr : j.records[k]? = some r) : r.isConsistent now 4 :=
  SessionRecord.isConsistent_mono (hs.consistent k r hr) h.later

/-- Replacing one record by its own next step, or by its end, keeps the table sound. -/
theorem sound_put {operation : String} {r' : SessionRecord} (hs : j.snapshot.Sound 4)
    (h : j.InTime now) (hr : j.records[operation]? = some r) (hbinding : r'.binding = r.binding)
    (hclosed : r.isClosed → r'.isClosed) (hconsistent : r'.isConsistent now 4) :
    (j.put operation r' now).snapshot.Sound 4 := by
  have hmem : operation ∈ j.records := by
    rw [← Std.TreeMap.isSome_getElem?_iff_mem, hr]
    rfl
  constructor
  case bounded =>
    have hsize : (j.records.insert operation r').size = j.records.size := by
      rw [Std.TreeMap.size_insert, if_pos (Std.TreeMap.contains_iff_mem.mpr hmem)]
    exact hsize.trans_le hs.bounded
  case timely => exact h.le_maxSessionTime hs
  apply hs.toSoundRecords.image
  intro k p hp
  have hp : (j.records.insert operation r')[k]? = some p := hp
  rw [Table.getElem?_insert] at hp
  by_cases hk : k = operation
  · rw [if_pos hk] at hp
    cases hp
    exact ⟨r, hk ▸ hr, hbinding, hclosed, hconsistent⟩
  · rw [if_neg hk] at hp
    exact ⟨p, hp, rfl, id, isConsistent_of_sound hs h hp⟩

theorem sound_reserve (hs : j.snapshot.Sound 4) (h : j.InTime now) (hvalid : binding.isValid)
    (hsize : j.records.size < maxSessionRecords)
    (hblocks : ∀ (k : String) (r : SessionRecord), j.records[k]? = some r →
      r.blocks binding = false) :
    (j.put binding.operationId (.reserve binding now) now).snapshot.Sound 4 := by
  constructor
  case bounded =>
    exact (Std.TreeMap.size_insert_le).trans hsize
  case timely => exact h.le_maxSessionTime hs
  have hlater : SoundRecords now 4 j.records := hs.toSoundRecords.image fun k r hr =>
    ⟨r, hr, rfl, id, isConsistent_of_sound hs h hr⟩
  have hapart : ∀ (k : String) (r : SessionRecord), j.records[k]? = some r →
      k ≠ binding.operationId → r.clashes (.reserve binding now) = false := by
    intro k r hr _
    simpa [SessionRecord.clashes, SessionRecord.blocks, SessionRecord.reserve,
      SessionRecord.isClosed] using hblocks k r hr
  exact hlater.insert (r := .reserve binding now) hvalid
    (SessionRecord.isConsistent_reserve binding h.pos) hapart

theorem Effect.sound {request : SessionRequest} {j' : SessionJournal} (h : j.Effect request j')
    (hs : j.snapshot.Sound 4) : j'.snapshot.Sound 4 := by
  cases h with
  | still => exact hs
  | touch htime =>
    constructor
    case bounded => exact hs.bounded
    case timely => exact htime.le_maxSessionTime hs
    exact hs.toSoundRecords.image fun k r hr =>
      ⟨r, hr, rfl, id, isConsistent_of_sound hs htime hr⟩
  | reserve hnow hvalid _ hsize hblocks =>
    exact sound_reserve hs (inTime_of_effectiveTime hnow) hvalid hsize hblocks
  | advance htime hr hadvance =>
    refine sound_put hs htime hr hadvance.binding_eq ?_
      (hadvance.isConsistent (isConsistent_of_sound hs htime hr))
    intro hclosed
    rw [hadvance.open_before] at hclosed
    cases hclosed
  | close hnow hr =>
    have htime := inTime_of_effectiveTime hnow
    exact sound_put hs htime hr rfl (fun _ => rfl)
      (SessionRecord.isConsistent_close (isConsistent_of_sound hs htime hr))
  | @release _ now hnow =>
    have htime := inTime_of_effectiveTime hnow
    constructor
    case bounded => exact Table.size_updateWhere.trans_le hs.bounded
    case timely => exact htime.le_maxSessionTime hs
    apply hs.toSoundRecords.image
    intro k r hr
    obtain ⟨p, hp, hpr⟩ := Table.getElem?_updateWhere_eq_some.mp hr
    have hconsistent := isConsistent_of_sound hs htime hp
    by_cases hdue : isDue now p
    · rw [if_pos hdue] at hpr
      rw [← hpr]
      exact ⟨p, hp, rfl, fun _ => rfl, SessionRecord.isConsistent_close hconsistent⟩
    · rw [if_neg hdue] at hpr
      rw [← hpr]
      exact ⟨p, hp, rfl, id, hconsistent⟩
  | prune hnow =>
    have htime := inTime_of_effectiveTime hnow
    constructor
    case bounded => exact (Std.TreeMap.size_filter_le_size).trans hs.bounded
    case timely => exact htime.le_maxSessionTime hs
    apply hs.toSoundRecords.image
    intro k r hr
    have hr := (Table.getElem?_filter_eq_some.mp hr).1
    exact ⟨r, hr, rfl, id, isConsistent_of_sound hs htime hr⟩

end Sound

end SessionJournal

end BlindPass.Broker
