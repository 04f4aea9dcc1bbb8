import BlindPass.Library.Execution

/-!
# The controller's wall clock

The controller dates everything by the clock of its database. It keeps the last time it saw in
the database, and in each process a sample of both wall clocks; a start, a store call and the
monitor compare a new observation with what is kept, and fence the controller if time went back
by more than a tolerance. An observation that is accepted replaces what was kept, also if it is
lower, so that small steps back add up. What the comparison does guarantee: as long as the clock
goes back only from the highest time seen so far, and to a start only if that time was written,
no accepted observation is below an earlier one by more than the tolerance.
-/

namespace BlindPass.Controller

open Execution

/-! ### The comparisons -/

/-- A time in milliseconds, a signed 64-bit number. -/
abbrev Millis := { ms : ℤ // -2 ^ 63 ≤ ms ∧ ms < 2 ^ 63 }

instance : DecidableLE Millis := fun a b => inferInstanceAs (Decidable (a.val ≤ b.val))

instance : DecidableLT Millis := fun a b => inferInstanceAs (Decidable (a.val < b.val))

/-- `i64::saturating_add` -/
def addMillis (a b : ℤ) : ℤ := max (-2 ^ 63) (min (2 ^ 63 - 1) (a + b))

structure ClockSample where
  bootId : Option String
  boottimeMs : Millis
  hostWallMs : Millis
  deriving DecidableEq

structure ClockAnchor where
  bootId : Option String
  boottimeMs : Millis
  databaseMs : Millis
  hostWallMs : Millis

structure RunningClockCheck where
  databaseRegressed : Bool
  hostRegressed : Bool
  databaseAdvanced : Bool
  hostAdvanced : Bool

/-- Compare with the sample before, after some monotonic time. -/
def checkRunningClock (previousDatabaseMs previousHostMs currentDatabaseMs currentHostMs : ℤ)
    (monotonicElapsedMs toleranceMs : ℤ) : RunningClockCheck :=
  let expectedDatabaseMs := addMillis previousDatabaseMs monotonicElapsedMs
  let expectedHostMs := addMillis previousHostMs monotonicElapsedMs
  { databaseRegressed := addMillis currentDatabaseMs toleranceMs < expectedDatabaseMs
    hostRegressed := addMillis currentHostMs toleranceMs < expectedHostMs
    databaseAdvanced := addMillis expectedDatabaseMs toleranceMs < currentDatabaseMs
    hostAdvanced := addMillis expectedHostMs toleranceMs < currentHostMs }

inductive StartupClockCheck
  | sameBoot
  | bootChangedOrUnknown
  | databaseRegressed
  | hostRegressed
  | bothRegressed
  deriving DecidableEq

/-- Compare with what an earlier process left behind. -/
def checkStartupClock (previous current : ClockAnchor) (toleranceMs : ℤ) : StartupClockCheck :=
  match previous.bootId, current.bootId with
  | some previousBootId, some currentBootId =>
    if previousBootId ≠ currentBootId ∨ current.boottimeMs < previous.boottimeMs then
      .bootChangedOrUnknown
    else
      let elapsedMs := current.boottimeMs.val - previous.boottimeMs.val
      let expectedDatabaseMs := addMillis previous.databaseMs elapsedMs
      let expectedHostMs := addMillis previous.hostWallMs elapsedMs
      match decide (addMillis current.databaseMs toleranceMs < expectedDatabaseMs),
        decide (addMillis current.hostWallMs toleranceMs < expectedHostMs) with
      | true, true => .bothRegressed
      | true, false => .databaseRegressed
      | false, true => .hostRegressed
      | false, false => .sameBoot
  | _, _ => .bootChangedOrUnknown

/-! ### The store -/

/-- The row of `controller_clock`. -/
structure ClockRow where
  lastObservedMs : Millis
  bootId : Option String
  boottimeMs : Option Millis
  hostWallMs : Option Millis
  fencedAt : Option Millis
  deriving DecidableEq

/-- What a process remembers of its last accepted observation. -/
structure ClockMonitorSample where
  databaseMs : Millis
  hostWallMs : Millis
  deriving DecidableEq

inductive ClockError
  | clockFenced
  | clockRegression
  deriving DecidableEq

/-- The row, and the sample of the running process. -/
structure ClockState where
  row : ClockRow
  monitor : Option ClockMonitorSample
  deriving DecidableEq

def clockAdvanceIntervalMs : ℤ := 1000

/-- `update_clock_anchor` of a row that is not fenced. -/
def ClockRow.observe (row : ClockRow) (sample : ClockSample) (databaseMs : Millis) : ClockRow :=
  { row with
    lastObservedMs := databaseMs
    bootId := sample.bootId
    boottimeMs := some sample.boottimeMs
    hostWallMs := some sample.hostWallMs }

/-- `persist_clock_fence` -/
def ClockRow.fence (row : ClockRow) (databaseMs : Millis) : ClockRow :=
  { row with fencedAt := row.fencedAt.or (some databaseMs) }

/-- What `fence_after_restart` does to the row: a fence that is there stays as it is. -/
def ClockRow.fenceAfterRestart (row : ClockRow) (sample : ClockSample) (databaseMs : Millis) :
    ClockRow :=
  if row.fencedAt.isSome then row else (row.fence databaseMs).observe sample databaseMs

namespace ClockState

def setMonitorSample (s : ClockState) (databaseMs hostWallMs : Millis) : ClockState :=
  { s with monitor := some ⟨databaseMs, hostWallMs⟩ }

/-- A time that was never written counts as zero. -/
def orZero (ms : Option Millis) : Millis := ms.getD ⟨0, by decide⟩

/-- A new process starts: `initialize_clock`. -/
def initializeClock (s : ClockState) (toleranceMs : ℤ) (sample : ClockSample) (databaseMs : Millis) :
    ClockState × Except ClockError Unit :=
  let fresh := { s with monitor := none }
  if s.row.fencedAt.isSome then (fresh.setMonitorSample databaseMs sample.hostWallMs, .ok ())
  else
    let previous : ClockAnchor :=
      ⟨s.row.bootId, orZero s.row.boottimeMs, s.row.lastObservedMs, orZero s.row.hostWallMs⟩
    let current : ClockAnchor :=
      ⟨sample.bootId, sample.boottimeMs, databaseMs, sample.hostWallMs⟩
    match checkStartupClock previous current toleranceMs with
    | .sameBoot =>
      (({ fresh with row := s.row.observe sample databaseMs }).setMonitorSample databaseMs
        sample.hostWallMs, .ok ())
    | .bootChangedOrUnknown =>
      (({ fresh with row := s.row.fenceAfterRestart sample databaseMs }).setMonitorSample databaseMs
        sample.hostWallMs, .ok ())
    | _ => ({ fresh with row := s.row.fence databaseMs }, .error .clockRegression)

/-- The reading of a monotonic clock as an `i64`. -/
def elapsed (elapsedMs : ℕ) : ℤ := min elapsedMs (2 ^ 63 - 1)

/-- A store call: `check_clock`. -/
def checkClock (s : ClockState) (toleranceMs : ℤ) (sample? : Option ClockSample) (now : Millis)
    (elapsedMs : ℕ) : ClockState × Except ClockError Unit :=
  if s.row.fencedAt.isSome then (s, .error .clockFenced)
  else
    match sample? with
    | none => ({ s with row := s.row.fence now }, .error .clockFenced)
    | some sample =>
      if s.row.bootId ≠ sample.bootId ∨ sample.bootId = none then
        ({ s with row := s.row.fenceAfterRestart sample now }, .error .clockFenced)
      else
        match s.monitor with
        | none => (s, .error .clockFenced)
        | some previous =>
          let check := checkRunningClock previous.databaseMs previous.hostWallMs now
            sample.hostWallMs (elapsed elapsedMs) toleranceMs
          let checkpointRegressed := decide (addMillis now toleranceMs < s.row.lastObservedMs)
          if check.databaseRegressed || check.hostRegressed || checkpointRegressed then
            ({ s with row := s.row.fence now }, .error .clockRegression)
          else
            -- a step back within the tolerance is written at once, a step ahead now and then
            let row :=
              if now.val < s.row.lastObservedMs.val ∨
                  clockAdvanceIntervalMs ≤ addMillis now (-s.row.lastObservedMs.val) then
                s.row.observe sample now
              else s.row
            (({ s with row }).setMonitorSample now sample.hostWallMs, .ok ())

/-- The monitor's pass: `monitor_clock`. -/
def monitorClock (s : ClockState) (toleranceMs : ℤ) (sample? : Option ClockSample)
    (databaseMs : Millis) (elapsedMs : ℕ) : ClockState × Except ClockError Unit :=
  match sample? with
  | none => ({ s with row := s.row.fence databaseMs }, .error .clockFenced)
  | some sample =>
    if s.row.fencedAt.isSome then (s, .error .clockFenced)
    else if s.row.bootId ≠ sample.bootId ∨ sample.bootId = none then
      ({ s with row := s.row.fenceAfterRestart sample databaseMs }, .error .clockFenced)
    else
      match s.monitor with
      | none => (s, .error .clockFenced)
      | some previous =>
        let check := checkRunningClock previous.databaseMs previous.hostWallMs databaseMs
          sample.hostWallMs (elapsed elapsedMs) toleranceMs
        if check.databaseRegressed || check.hostRegressed then
          ({ s with row := s.row.fence databaseMs }, .error .clockFenced)
        else
          (({ s with row := s.row.observe sample databaseMs }).setMonitorSample databaseMs
            sample.hostWallMs, .ok ())

end ClockState

/-! ### The machine -/

/-- An observation of the database clock. -/
inductive ClockEvent
  | startup (sample : ClockSample) (databaseMs : Millis)
  | check (sample? : Option ClockSample) (databaseMs : Millis) (elapsedMs : ℕ)
  | monitor (sample? : Option ClockSample) (databaseMs : Millis) (elapsedMs : ℕ)

def ClockEvent.databaseMs : ClockEvent → Millis
  | startup _ databaseMs | check _ databaseMs _ | monitor _ databaseMs _ => databaseMs

/-- The state, with what was observed so far and what of it was accepted, the latest first. -/
structure ClockHistory where
  state : ClockState
  observed : List ClockEvent
  accepted : List Millis

/-- The machine of a controller with a tolerance. An observation is accepted if the call succeeds
and leaves the controller unfenced. -/
def wallClock (toleranceMs : ℤ) : Machine ClockHistory ClockEvent (Except ClockError Unit) where
  Start h := h.state.row.fencedAt = none ∧ h.state.monitor = none ∧ h.accepted = []
  Admits _ _ := True
  step h e :=
    let answer :=
      match e with
      | .startup sample databaseMs => h.state.initializeClock toleranceMs sample databaseMs
      | .check sample? now elapsedMs => h.state.checkClock toleranceMs sample? now elapsedMs
      | .monitor sample? databaseMs elapsedMs =>
        h.state.monitorClock toleranceMs sample? databaseMs elapsedMs
    let accepted :=
      if answer.2 = .ok () ∧ answer.1.row.fencedAt = none then e.databaseMs :: h.accepted
      else h.accepted
    (⟨answer.1, e :: h.observed, accepted⟩, answer.2)

/-! ### Clocks that go back only from their highest time -/

/-- The observation that was written last: a start and the monitor write theirs, a store call if
the clock went back or ahead by an interval since. -/
def writtenMs : List ClockEvent → Option Millis
  | [] => none
  | .check _ now _ :: earlier => (writtenMs earlier).map fun written =>
    if now < written ∨ written.val + clockAdvanceIntervalMs ≤ now.val then now else written
  | e :: _ => some e.databaseMs

/-- The clock does not go back at `e`, or it goes back from its highest time, and from one that was
written if `e` is a start. -/
def ClockEvent.FromPeak (earlier : List ClockEvent) (e : ClockEvent) : Prop :=
  ∀ last ∈ earlier.head?, last.databaseMs ≤ e.databaseMs ∨
    (∀ o ∈ earlier, o.databaseMs ≤ last.databaseMs) ∧
      match e with
      | .startup .. => writtenMs earlier = some last.databaseMs
      | _ => True

instance (earlier : List ClockEvent) (e : ClockEvent) : Decidable (e.FromPeak earlier) := by
  unfold ClockEvent.FromPeak
  cases e <;> infer_instance

/-! ### What an accepted observation was compared with -/

section Bounds

variable {toleranceMs : ℤ} {s : ClockState} {now : Millis}

/-- A sum that is not below another one, up to saturation. -/
theorem le_add_of_not_addMillis_lt (htolerance : 0 ≤ toleranceMs) (now stored : Millis) {elapsed : ℤ}
    (helapsed : 0 ≤ elapsed) (h : ¬ addMillis now toleranceMs < addMillis stored elapsed) :
    stored.val ≤ now.val + toleranceMs := by
  have hstored := stored.property
  have hnow := now.property
  unfold addMillis at h
  omega

theorem fencedAt_fence (row : ClockRow) : (row.fence now).fencedAt.isSome = true := by
  cases h : row.fencedAt <;> simp [ClockRow.fence, h]

theorem fencedAt_fenceAfterRestart (row : ClockRow) (sample : ClockSample) :
    (row.fenceAfterRestart sample now).fencedAt.isSome = true := by
  unfold ClockRow.fenceAfterRestart
  split
  · assumption
  · exact fencedAt_fence row

theorem elapsed_nonneg (elapsedMs : ℕ) : 0 ≤ ClockState.elapsed elapsedMs := by
  unfold ClockState.elapsed
  omega

/-- A start fences the controller, or is not too far below the row and stored. -/
theorem initializeClock_cases (sample : ClockSample) (htolerance : 0 ≤ toleranceMs)
    (hs : s.row.fencedAt = none) :
    let s' := (s.initializeClock toleranceMs sample now).1
    s'.row.fencedAt.isSome = true ∨ s'.monitor.map (·.databaseMs) = some now ∧
      s'.row.lastObservedMs = now ∧ s.row.lastObservedMs.val ≤ now.val + toleranceMs := by
  unfold ClockState.initializeClock
  simp only [hs, Option.isSome_none, Bool.false_eq_true, if_false]
  split
  · next hcheck =>
    refine .inr ⟨rfl, rfl, ?_⟩
    -- only the last of the startup checks ends well
    unfold checkStartupClock at hcheck
    split at hcheck
    · split_ifs at hcheck with hboot
      have helapsed : 0 ≤ sample.boottimeMs.val - (ClockState.orZero s.row.boottimeMs).val := by
        have hle : (ClockState.orZero s.row.boottimeMs).val ≤ sample.boottimeMs.val :=
          not_lt.mp (not_or.mp hboot).2
        omega
      dsimp only at hcheck
      split at hcheck
      · cases hcheck
      · cases hcheck
      · cases hcheck
      · next hdatabase _ =>
        exact le_add_of_not_addMillis_lt htolerance now _ helapsed (of_decide_eq_false hdatabase)
    · cases hcheck
  · exact .inl (fencedAt_fenceAfterRestart _ _)
  · exact .inl (fencedAt_fence _)

/-- What an observation leads to: it fences the controller, fails in a process that has not
started, or is not too far below the last one and stored in the process. -/
def ClockState.Observes (s : ClockState) (toleranceMs : ℤ) (now written : Millis)
    (result : ClockState × Except ClockError Unit) : Prop :=
  result.1.row.fencedAt.isSome = true ∨ s.monitor = none ∧ result = (s, .error .clockFenced) ∨
    result.1.monitor.map (·.databaseMs) = some now ∧ result.1.row.lastObservedMs = written ∧
      ∃ previous, s.monitor = some previous ∧ previous.databaseMs.val ≤ now.val + toleranceMs

theorem observes_checkClock (sample? : Option ClockSample) (elapsedMs : ℕ)
    (htolerance : 0 ≤ toleranceMs) (hs : s.row.fencedAt = none) {written : Millis}
    (hwritten : (if now < s.row.lastObservedMs ∨
      s.row.lastObservedMs.val + clockAdvanceIntervalMs ≤ now.val then now
      else s.row.lastObservedMs) = written) :
    s.Observes toleranceMs now written (s.checkClock toleranceMs sample? now elapsedMs) := by
  unfold ClockState.checkClock
  simp only [hs, Option.isSome_none, Bool.false_eq_true, if_false]
  split
  · exact .inl (fencedAt_fence _)
  next sample =>
  split
  · exact .inl (fencedAt_fenceAfterRestart _ _)
  split
  · next hmonitor => exact .inr (.inl ⟨hmonitor, rfl⟩)
  next previous hmonitor =>
  split
  · exact .inl (fencedAt_fence _)
  next hclear =>
  simp only [checkRunningClock, Bool.or_eq_true, decide_eq_true_eq, not_or] at hclear
  refine .inr (.inr ⟨rfl, ?_, previous, hmonitor,
    le_add_of_not_addMillis_lt htolerance now _ (elapsed_nonneg elapsedMs) hclear.1.1⟩)
  have hwrites : (now.val < s.row.lastObservedMs.val ∨
      clockAdvanceIntervalMs ≤ addMillis now (-s.row.lastObservedMs.val)) ↔
        now < s.row.lastObservedMs ∨
          s.row.lastObservedMs.val + clockAdvanceIntervalMs ≤ now.val := by
    refine or_congr Iff.rfl ?_
    have hnow := now.property
    have hstored := s.row.lastObservedMs.property
    unfold addMillis clockAdvanceIntervalMs
    omega
  simp only [← hwritten, ClockState.setMonitorSample, hwrites]
  split <;> rfl

theorem observes_monitorClock (sample? : Option ClockSample) (elapsedMs : ℕ)
    (htolerance : 0 ≤ toleranceMs) (hs : s.row.fencedAt = none) :
    s.Observes toleranceMs now now (s.monitorClock toleranceMs sample? now elapsedMs) := by
  unfold ClockState.monitorClock
  split
  · exact .inl (fencedAt_fence _)
  simp only [hs, Option.isSome_none, Bool.false_eq_true, if_false]
  split
  · exact .inl (fencedAt_fenceAfterRestart _ _)
  split
  · next hmonitor => exact .inr (.inl ⟨hmonitor, rfl⟩)
  next previous hmonitor =>
  split
  · exact .inl (fencedAt_fence _)
  next hclear =>
  simp only [checkRunningClock, Bool.or_eq_true, decide_eq_true_eq, not_or] at hclear
  exact .inr (.inr ⟨rfl, rfl, previous, hmonitor,
    le_add_of_not_addMillis_lt htolerance now _ (elapsed_nonneg elapsedMs) hclear.1⟩)

end Bounds

/-! ### Runs -/

section Runs

variable {toleranceMs : ℤ} {h h' : ClockHistory} {e : ClockEvent}

/-- What is stored after `observed`: the last observation in the process and the one written last
in the row; and no accepted one is above the last one by more than the tolerance. -/
structure ClockHistory.Settled (toleranceMs : ℤ) (h : ClockHistory) : Prop where
  accepted : ∀ o ∈ h.accepted, ∃ e ∈ h.observed, e.databaseMs = o
  unstarted : h.state.row.fencedAt = none → h.state.monitor = none → h.accepted = []
  started : h.state.row.fencedAt = none → ∀ previous ∈ h.state.monitor,
    h.observed.head?.map (·.databaseMs) = some previous.databaseMs ∧
      writtenMs h.observed = some h.state.row.lastObservedMs ∧
      ∀ o ∈ h.accepted, o.val ≤ previous.databaseMs.val + toleranceMs

/-- An observation is not below what the code compares it with by more than the tolerance. -/
def ClockHistory.Follows (toleranceMs : ℤ) (h : ClockHistory) : ClockEvent → Prop
  | .startup _ now => h.state.row.lastObservedMs.val ≤ now.val + toleranceMs
  | .check _ now _ | .monitor _ now _ => ∃ previous, h.state.monitor = some previous ∧
      previous.databaseMs.val ≤ now.val + toleranceMs

/-- The step of the machine fences the controller, changes nothing in a process that has not
started, or stores an observation that follows. -/
theorem wallClock_step (htolerance : 0 ≤ toleranceMs) (hopen : h.state.row.fencedAt = none)
    (hwritten : ∀ previous ∈ h.state.monitor,
      writtenMs h.observed = some h.state.row.lastObservedMs) :
    ((wallClock toleranceMs).step h e).1.state.row.fencedAt.isSome = true ∨
      h.state.monitor = none ∧ ((wallClock toleranceMs).step h e).1.state = h.state ∧
        ((wallClock toleranceMs).step h e).2 = .error .clockFenced ∨
      ((wallClock toleranceMs).step h e).1.state.monitor.map (·.databaseMs) = some e.databaseMs ∧
        writtenMs (e :: h.observed) =
          some ((wallClock toleranceMs).step h e).1.state.row.lastObservedMs ∧
        h.Follows toleranceMs e := by
  cases e with
  | startup sample now =>
    rcases initializeClock_cases sample htolerance hopen with hfenced | ⟨hmonitor, hrow, hbound⟩
    · exact .inl hfenced
    · exact .inr (.inr ⟨hmonitor, congrArg some hrow.symm, hbound⟩)
  | check sample? now elapsedMs =>
    rcases observes_checkClock sample? elapsedMs htolerance hopen rfl with
      hfenced | ⟨hnone, hsame⟩ | ⟨hmonitor, hrow, previous, hprevious, hbound⟩
    · exact .inl hfenced
    · exact .inr (.inl ⟨hnone, congrArg Prod.fst hsame, congrArg Prod.snd hsame⟩)
    · refine .inr (.inr ⟨hmonitor, ?_, previous, hprevious, hbound⟩)
      rw [writtenMs, hwritten previous hprevious, Option.map_some]
      exact congrArg some hrow.symm
  | monitor sample? now elapsedMs =>
    rcases observes_monitorClock sample? elapsedMs htolerance hopen with
      hfenced | ⟨hnone, hsame⟩ | ⟨hmonitor, hrow, hprevious⟩
    · exact .inl hfenced
    · exact .inr (.inl ⟨hnone, congrArg Prod.fst hsame, congrArg Prod.snd hsame⟩)
    · exact .inr (.inr ⟨hmonitor, congrArg some hrow.symm, hprevious⟩)

theorem fenced_step (hfenced : h.state.row.fencedAt.isSome = true) :
    ((wallClock toleranceMs).step h e).1.state.row.fencedAt.isSome = true := by
  cases e with
  | startup =>
    simp [wallClock, ClockState.initializeClock, hfenced, ClockState.setMonitorSample]
  | check sample? now elapsedMs =>
    simp [wallClock, ClockState.checkClock, hfenced]
  | monitor sample? now elapsedMs =>
    cases sample? with
    | none => exact fencedAt_fence _
    | some => simp [wallClock, ClockState.monitorClock, hfenced]

/-- Before a step that leaves the controller unfenced it was unfenced. -/
theorem open_of_step (hopen : ((wallClock toleranceMs).step h e).1.state.row.fencedAt = none) :
    h.state.row.fencedAt = none := by
  by_contra hfenced
  have hstays : ((wallClock toleranceMs).step h e).1.state.row.fencedAt.isSome = true :=
    fenced_step (Option.isSome_iff_ne_none.mpr hfenced)
  simp [hopen] at hstays

/-- An observation that follows is not too far below any accepted one, if the clock goes back only
from its highest time. -/
theorem ClockHistory.Settled.bounded (hsettled : h.Settled toleranceMs)
    (hopen : h.state.row.fencedAt = none) (hpeak : e.FromPeak h.observed)
    (hbound : h.Follows toleranceMs e) :
    ∀ o ∈ h.accepted, o.val ≤ e.databaseMs.val + toleranceMs := by
  intro o ho
  cases hmonitor : h.state.monitor with
  | none => simp [hsettled.unstarted hopen hmonitor] at ho
  | some previous =>
    obtain ⟨hlast, hwritten, haccepted⟩ := hsettled.started hopen previous hmonitor
    obtain ⟨last, hhead, hprevious⟩ := Option.map_eq_some_iff.mp hlast
    rcases hpeak last hhead with hforward | ⟨hhighest, hstart⟩
    · have hle : last.databaseMs.val ≤ e.databaseMs.val := hforward
      rw [hprevious] at hle
      exact (haccepted o ho).trans (by omega)
    · -- a step back from the highest time: the code compares with that time itself
      obtain ⟨seen, hseen, rfl⟩ := hsettled.accepted o ho
      have hle : seen.databaseMs.val ≤ last.databaseMs.val := hhighest seen hseen
      refine hle.trans ?_
      cases e with
      | startup =>
        rw [Option.some.inj (hstart.symm.trans hwritten)]
        exact hbound
      | check | monitor =>
        obtain ⟨_, hsame, hbound⟩ := hbound
        obtain rfl := Option.some.inj (hmonitor.symm.trans hsame)
        rw [hprevious]
        exact hbound

theorem settled_step (htolerance : 0 ≤ toleranceMs) (hsettled : h.Settled toleranceMs)
    (hpeak : e.FromPeak h.observed) :
    ((wallClock toleranceMs).step h e).1.Settled toleranceMs := by
  have haccepted : ∀ o ∈ ((wallClock toleranceMs).step h e).1.accepted,
      o = e.databaseMs ∨ o ∈ h.accepted := by
    intro o ho
    simp only [wallClock] at ho
    split_ifs at ho
    · exact List.mem_cons.mp ho
    · exact .inr ho
  have hcases := fun hopen => wallClock_step (e := e) htolerance hopen
    fun previous hprevious => (hsettled.started hopen previous hprevious).2.1
  refine ⟨fun o ho => ?_, fun hopen' hmonitor' => ?_, fun hopen' previous hprevious => ?_⟩
  · rcases haccepted o ho with rfl | ho
    · exact ⟨e, List.mem_cons_self, rfl⟩
    · obtain ⟨seen, hseen, hsame⟩ := hsettled.accepted o ho
      exact ⟨seen, List.mem_cons_of_mem _ hseen, hsame⟩
  · rcases hcases (open_of_step hopen') with hfenced | ⟨hnone, -, herror⟩ | ⟨hmonitor, -⟩
    · simp [hopen'] at hfenced
    · have hsame : ((wallClock toleranceMs).step h e).1.accepted = h.accepted :=
        if_neg fun hok => by cases herror.symm.trans hok.1
      rw [hsame]
      exact hsettled.unstarted (open_of_step hopen') hnone
    · simp [hmonitor'] at hmonitor
  · rcases hcases (open_of_step hopen') with hfenced | ⟨hnone, hsame, -⟩ | ⟨hmonitor, hwritten, hbound⟩
    · simp [hopen'] at hfenced
    · rw [hsame, hnone] at hprevious
      cases hprevious
    · rw [Option.mem_def.mp hprevious, Option.map_some, Option.some.injEq] at hmonitor
      refine ⟨congrArg some hmonitor.symm, hwritten, fun o ho => ?_⟩
      rw [hmonitor]
      rcases haccepted o ho with rfl | ho
      · omega
      · exact hsettled.bounded (open_of_step hopen') hpeak hbound o ho

/-- If the clock goes back only from its highest time, an accepted observation is at most the
tolerance below each earlier one, and an observation that is lower leaves the controller fenced. -/
theorem accepted_of_fromPeak (toleranceMs : ℤ) (htolerance : 0 ≤ toleranceMs) (final : ClockHistory)
    (run : List (Transition ClockHistory ClockEvent (Except ClockError Unit)))
    (hrun : (wallClock toleranceMs).Run run final)
    (hpeak : ∀ t ∈ run, t.event.FromPeak t.before.observed) :
    ∀ t ∈ run, t.before.state.row.fencedAt = none →
      (t.output = .ok () → t.after.state.row.fencedAt = none →
        ∀ o ∈ t.before.accepted, o.val ≤ t.event.databaseMs.val + toleranceMs) ∧
      ((∃ o ∈ t.before.accepted, t.event.databaseMs.val + toleranceMs < o.val) →
        t.after.state.row.fencedAt.isSome = true) := by
  intro t ht hopen
  obtain ⟨before, after, rfl⟩ := List.append_of_mem ht
  obtain ⟨hprior, -, hstep⟩ := hrun.split
  have hsettled : t.before.Settled toleranceMs := by
    refine hprior.invariant_of (Q := fun t => t.event.FromPeak t.before.observed) ?_ ?_
      fun u hu => hpeak u (List.mem_append_left _ hu)
    · rintro h ⟨-, hmonitor, haccepted⟩
      exact ⟨by simp [haccepted], fun _ _ => haccepted, by simp [hmonitor]⟩
    · intro h e hsettled _ hpeak
      exact settled_step htolerance hsettled hpeak
  have hbounded : t.after.state.row.fencedAt.isSome = true ∨
      ∀ o ∈ t.before.accepted, o.val ≤ t.event.databaseMs.val + toleranceMs := by
    rw [hstep, Machine.transition_after, Machine.transition_before, Machine.transition_event]
    rcases wallClock_step (e := t.event) htolerance hopen
      fun previous hprevious => (hsettled.started hopen previous hprevious).2.1 with
      hfenced | ⟨hnone, -⟩ | ⟨-, -, hbound⟩
    · exact .inl hfenced
    · -- nothing was accepted yet
      simp [hsettled.unstarted hopen hnone]
    · exact .inr (hsettled.bounded hopen (hpeak t ht) hbound)
  constructor
  · intro _ hopen'
    rcases hbounded with hfenced | hbound
    · simp [hopen'] at hfenced
    · exact hbound
  · rintro ⟨o, ho, hlow⟩
    rcases hbounded with hfenced | hbound
    · exact hfenced
    · exact absurd (hbound o ho) (not_le.mpr hlow)

end Runs

/-! ### Steps back that add up -/

section Drift

/-- A time of the examples below. -/
def sampleMillis (ms : ℤ) (h : -2 ^ 63 ≤ ms ∧ ms < 2 ^ 63 := by decide) : Millis := ⟨ms, h⟩

/-- The host's clocks as they stand still. -/
def stillSample : ClockSample := ⟨some "boot", sampleMillis 0, sampleMillis 0⟩

/-- A controller that was set up at ten seconds. -/
def setUpAtTen : ClockHistory where
  state :=
    { row := ⟨sampleMillis 10000, some "boot", some (sampleMillis 0), some (sampleMillis 0), none⟩
      monitor := none }
  observed := []
  accepted := []

/-- A start and two store calls while the database clock goes back by a second and a half each
time. -/
def driftingEvents : List ClockEvent :=
  [.startup stillSample (sampleMillis 10000), .check (some stillSample) (sampleMillis 8500) 0,
    .check (some stillSample) (sampleMillis 7000) 0]

/-- Store calls ahead that are not written, a new start, steps back from the highest time and on
from there, and in the end one by more than the tolerance. -/
def steadyEvents : List ClockEvent :=
  [.startup stillSample (sampleMillis 10000), .check (some stillSample) (sampleMillis 10500) 0,
    .startup stillSample (sampleMillis 10600), .monitor (some stillSample) (sampleMillis 9000) 0,
    .check (some stillSample) (sampleMillis 9500) 0, .startup stillSample (sampleMillis 11700),
    .startup stillSample (sampleMillis 10200), .monitor (some stillSample) (sampleMillis 12000) 0,
    .check (some stillSample) (sampleMillis 9900) 0]

theorem run_setUpAtTen (events : List ClockEvent) :
    (wallClock 2000).Run ((wallClock 2000).play setUpAtTen events).1
      ((wallClock 2000).play setUpAtTen events).2 := by
  have hstart : (wallClock 2000).Start setUpAtTen := ⟨rfl, rfl, rfl⟩
  refine Machine.run_play hstart ?_
  generalize setUpAtTen = h
  induction events generalizing h with
  | nil => exact trivial
  | cons e rest ih => exact ⟨trivial, ih _⟩

/-- Three observations are accepted, the last three seconds below the first, with a tolerance of
two. -/
theorem accepted_drifts : (wallClock 2000).Run ((wallClock 2000).play setUpAtTen driftingEvents).1
        ((wallClock 2000).play setUpAtTen driftingEvents).2 ∧
      ((wallClock 2000).play setUpAtTen driftingEvents).1.map (·.output) =
        [.ok (), .ok (), .ok ()] ∧
      ((wallClock 2000).play setUpAtTen driftingEvents).2.state.row.fencedAt = none ∧
      ((wallClock 2000).play setUpAtTen driftingEvents).2.accepted.map (·.val) =
        [7000, 8500, 10000] ∧ ¬ (10000 : ℤ) ≤ 7000 + 2000 := by
  exact ⟨run_setUpAtTen _, by decide +kernel, by decide +kernel, by decide +kernel, by decide⟩

theorem accepted_of_fromPeak_steady :
    (∀ t ∈ ((wallClock 2000).play setUpAtTen steadyEvents).1, t.event.FromPeak t.before.observed) ∧
    ((wallClock 2000).play setUpAtTen steadyEvents).2.accepted.map (·.val) =
      [12000, 10200, 11700, 9500, 9000, 10600, 10500, 10000] ∧
    ∀ t ∈ ((wallClock 2000).play setUpAtTen steadyEvents).1, t.before.state.row.fencedAt = none →
      (t.output = .ok () → t.after.state.row.fencedAt = none →
        ∀ o ∈ t.before.accepted, o.val ≤ t.event.databaseMs.val + 2000) ∧
      ((∃ o ∈ t.before.accepted, t.event.databaseMs.val + 2000 < o.val) →
        t.after.state.row.fencedAt.isSome = true) := by
  have hpeak : ∀ t ∈ ((wallClock 2000).play setUpAtTen steadyEvents).1,
      t.event.FromPeak t.before.observed := by decide +kernel
  exact ⟨hpeak, by decide +kernel,
    accepted_of_fromPeak 2000 (by decide) _ _ (run_setUpAtTen _) hpeak⟩

end Drift

end BlindPass.Controller
