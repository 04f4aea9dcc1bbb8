import BlindPass.Library.Execution

/-!
# The ownership guard of a controller process

A controller process owns its authority by a database connection that it holds. Work is
admitted under the guard and counted; a fence refuses every later admission, and the connection
is given up once the count is zero, unless some database work ended without an answer: such work
may still be running on the server, so that the process keeps the connection for good.

Every section under the `operations` mutex is one step here, and so is everything a task does
between two points at which it can be suspended. A check holds the connection's own lock while
its query runs, and a task that only tries that lock gives up where it does not get it.
-/

namespace BlindPass.Controller

open Execution

/-! ### The guard -/

/-- `phase` of the authority record that the process holds. -/
inductive AuthorityPhase
  | active
  | recovering
  | fenced
  deriving DecidableEq

/-- An `OwnershipOperation`, or the `OwnershipDatabaseWork` made of one. -/
structure Work where
  /-- Whether the database work was acknowledged; none while there is only the permit. -/
  acknowledged : Option Bool
  /-- Its drop marked it uncertain. -/
  marked : Bool
  /-- Its permit was dropped. -/
  ended : Bool
  deriving DecidableEq

/-- Its permit is still counted. -/
def Work.live (w : Work) : Bool := !w.ended

/-- Where a `check` stands. -/
inductive CheckPhase
  /-- It waits for the connection. -/
  | waiting
  /-- It holds the connection's lock and awaits the row. -/
  | querying
  /-- The row was right; the lock is free again. -/
  | answered
  /-- It has to fence. -/
  | failed
  /-- Its `OwnershipCheck` is dropped without being completed, and fences. -/
  | dropping
  | done
  deriving DecidableEq

/-- Where a `quiesce` stands after its fence. -/
inductive QuiescePhase
  /-- It reads the count, now or when it is notified. -/
  | counting
  /-- It read zero. -/
  | drained
  /-- It found no uncertain work and waits for the connection. -/
  | locking
  | done
  deriving DecidableEq

structure ProcessOwnership where
  phase : AuthorityPhase
  /-- The connection is there. -/
  connection : Bool
  /-- The check that holds the connection's lock. -/
  lock : Option ℕ
  fenced : Bool
  uncertainDatabaseWork : Bool
  operations : ℕ
  works : List Work
  checks : List CheckPhase
  quiesces : List QuiescePhase
  deriving DecidableEq

namespace ProcessOwnership

/-- A process that has just taken the authority. -/
def new (phase : AuthorityPhase) : ProcessOwnership :=
  { phase, connection := true, lock := none, fenced := false, uncertainDatabaseWork := false
    operations := 0, works := [], checks := [], quiesces := [] }

variable (o : ProcessOwnership)

/-- Take the connection if `try_lock` gets it; a lock handed to a waiter (`granted` is false)
is not free. -/
def tryTake (granted : Bool) : ProcessOwnership :=
  if granted ∧ o.lock = none then { o with connection := false } else o

def fence (granted : Bool) : ProcessOwnership :=
  let o := { o with fenced := true }
  if o.operations = 0 ∧ o.uncertainDatabaseWork = false then o.tryTake granted else o

def markUncertainDatabaseWork : ProcessOwnership :=
  { o with uncertainDatabaseWork := true, fenced := true }

def mapWork (i : ℕ) (f : Work → Work) : ProcessOwnership :=
  { o with works := o.works.modify i f }

/-- `admit_phase`; the new permit, or nothing. -/
def admitPhase (phase : AuthorityPhase) : ProcessOwnership × Option ℕ :=
  if o.fenced ∨ o.phase ≠ phase then (o, none)
  else if o.operations + 1 < 2 ^ 64 then
    ({ o with operations := o.operations + 1, works := o.works ++ [⟨none, false, false⟩] },
      some o.works.length)
  else (o, none)

/-- The drop of an `OwnershipOperation`. -/
def dropOperation (i : ℕ) (granted : Bool) : ProcessOwnership :=
  let o := { o.mapWork i ({ · with ended := true }) with operations := o.operations - 1 }
  if o.operations = 0 ∧ o.fenced = true ∧ o.uncertainDatabaseWork = false then o.tryTake granted
  else o

/-! ### The tasks that use it -/

def setCheck (i : ℕ) (phase : CheckPhase) : ProcessOwnership :=
  { o with checks := o.checks.set i phase }

def setQuiesce (i : ℕ) (phase : QuiescePhase) : ProcessOwnership :=
  { o with quiesces := o.quiesces.set i phase }

/-- The lock is free again if check `i` held it. -/
def unlock (i : ℕ) : ProcessOwnership :=
  { o with lock := if o.lock = some i then none else o.lock }

/-- A check gets the connection's lock. -/
def checkLocked (i : ℕ) : ProcessOwnership :=
  if o.fenced ∨ o.connection = false then o.setCheck i .failed
  else { o.setCheck i .querying with lock := some i }

/-- A check reads whether this process is still the holder. -/
def checkAnswered (i : ℕ) (row : Bool) : ProcessOwnership :=
  (o.unlock i).setCheck i (if o.fenced ∨ row = false then .failed else .answered)

/-- A check returns. -/
def checkReturned (i : ℕ) : ProcessOwnership :=
  o.setCheck i (if o.fenced then .failed else .done)

end ProcessOwnership

inductive OwnershipEvent
  | admitPhase (phase : AuthorityPhase)
  /-- `database_work` -/
  | databaseWork (work : ℕ)
  | acknowledge (work : ℕ)
  /-- The first half of the drop of database work that was not acknowledged. -/
  | markUncertain (work : ℕ)
  | dropOperation (work : ℕ) (granted : Bool)
  | fence (granted : Bool)
  | check
  | checkLocked (check : ℕ)
  | checkAnswered (check : ℕ) (row : Bool)
  /-- The query failed or the deadline passed. -/
  | checkLapsed (check : ℕ)
  | checkReturned (check : ℕ)
  | checkCancelled (check : ℕ)
  /-- The fence of a failed check, and then of its `OwnershipCheck`. -/
  | checkFences (check : ℕ) (granted : Bool)
  | quiesce (granted : Bool)
  | quiesceCounted (quiesce : ℕ)
  | quiesceDecided (quiesce : ℕ)
  | quiesceTakes (quiesce : ℕ)
  /-- The deadline passed, or the caller went away. -/
  | quiesceLapsed (quiesce : ℕ)
  deriving DecidableEq

open ProcessOwnership in
/-- One step, with the permit it hands out. -/
def ProcessOwnership.step (o : ProcessOwnership) : OwnershipEvent → ProcessOwnership × Option ℕ
  | .admitPhase phase => o.admitPhase phase
  | .databaseWork i => (o.mapWork i ({ · with acknowledged := some false }), none)
  | .acknowledge i => (o.mapWork i ({ · with acknowledged := some true }), none)
  | .markUncertain i =>
    ((o.mapWork i ({ · with marked := true })).markUncertainDatabaseWork, none)
  | .dropOperation i granted => (o.dropOperation i granted, none)
  | .fence granted => (o.fence granted, none)
  | .check =>
    -- a check of a fenced guard returns at once
    (if o.fenced then o else { o with checks := o.checks ++ [.waiting] }, none)
  | .checkLocked i => (o.checkLocked i, none)
  | .checkAnswered i row => (o.checkAnswered i row, none)
  | .checkLapsed i => ((o.unlock i).setCheck i .failed, none)
  | .checkReturned i => (o.checkReturned i, none)
  | .checkCancelled i => ((o.unlock i).setCheck i .dropping, none)
  | .checkFences i granted =>
    ((o.fence granted).setCheck i (if o.checks[i]? = some .failed then .dropping else .done), none)
  | .quiesce granted =>
    ({ o.fence granted with quiesces := o.quiesces ++ [.counting] }, none)
  | .quiesceCounted i => (if o.operations = 0 then o.setQuiesce i .drained else o, none)
  | .quiesceDecided i =>
    (o.setQuiesce i (if o.uncertainDatabaseWork then .done else .locking), none)
  | .quiesceTakes i => ({ o.setQuiesce i .done with connection := false }, none)
  | .quiesceLapsed i => (o.setQuiesce i .done, none)

/-- The permit `i` is not dropped yet and has the property `P`. -/
def ProcessOwnership.HasWork (o : ProcessOwnership) (i : ℕ) (P : Work → Prop) : Prop :=
  ∃ w ∈ o.works[i]?, w.ended = false ∧ P w

instance {o : ProcessOwnership} {i : ℕ} {P : Work → Prop} [DecidablePred P] :
    Decidable (o.HasWork i P) :=
  inferInstanceAs (Decidable (∃ w ∈ o.works[i]?, w.ended = false ∧ P w))

/-- What a task can do where it stands. -/
def ProcessOwnership.Admits (o : ProcessOwnership) : OwnershipEvent → Prop
  | .admitPhase _ | .fence _ | .check | .quiesce _ => True
  | .databaseWork i => o.HasWork i (·.acknowledged = none)
  | .acknowledge i => o.HasWork i fun w => w.acknowledged = some false ∧ w.marked = false
  | .markUncertain i => o.HasWork i fun w => w.acknowledged = some false ∧ w.marked = false
  | .dropOperation i _ => o.HasWork i fun w => w.acknowledged ≠ some false ∨ w.marked = true
  | .checkLocked i => o.checks[i]? = some .waiting ∧ o.lock = none
  | .checkAnswered i _ => o.checks[i]? = some .querying
  | .checkLapsed i => o.checks[i]? = some .waiting ∨ o.checks[i]? = some .querying
  | .checkReturned i => o.checks[i]? = some .answered
  | .checkCancelled i => o.checks[i]? = some .waiting ∨ o.checks[i]? = some .querying
  | .checkFences i _ => o.checks[i]? = some .failed ∨ o.checks[i]? = some .dropping
  | .quiesceCounted i => o.quiesces[i]? = some .counting
  | .quiesceDecided i => o.quiesces[i]? = some .drained
  | .quiesceTakes i => o.quiesces[i]? = some .locking ∧ o.lock = none
  | .quiesceLapsed i => ∃ phase ∈ o.quiesces[i]?, phase ≠ .done

instance (o : ProcessOwnership) (e : OwnershipEvent) : Decidable (o.Admits e) := by
  cases e <;> unfold ProcessOwnership.Admits <;> infer_instance

/-- The guard from the moment the authority is taken, used by any number of tasks. -/
def ownership (phase : AuthorityPhase) : Machine ProcessOwnership OwnershipEvent (Option ℕ) where
  Start o := o = .new phase
  Admits o := o.Admits
  step o := o.step

instance {phase : AuthorityPhase} (o : ProcessOwnership) (e : OwnershipEvent) :
    Decidable ((ownership phase).Admits o e) :=
  inferInstanceAs (Decidable (o.Admits e))

/-! ### What every step keeps -/

variable {w : Work}

namespace ProcessOwnership

variable {o : ProcessOwnership} {i : ℕ} {granted : Bool} {f : Work → Work}

/-- The count is that of the live permits, the latches are never taken back, and the connection
is gone only after a fence with nothing counted and nothing uncertain. A task that is about to
take the connection has seen that, and it stays so. -/
structure Sound (o : ProcessOwnership) : Prop where
  counted : o.operations = o.works.countP Work.live
  marked : ∀ w ∈ o.works, w.marked = true → o.uncertainDatabaseWork = true
  released : o.connection = false →
    o.fenced = true ∧ o.operations = 0 ∧ o.uncertainDatabaseWork = false
  fenced : ∀ q ∈ o.quiesces, o.fenced = true
  drained : ∀ q ∈ o.quiesces, q = .drained ∨ q = .locking → o.operations = 0
  locking : .locking ∈ o.quiesces → o.uncertainDatabaseWork = false

theorem Sound.new (phase : AuthorityPhase) : (new phase).Sound := by
  constructor <;> simp [ProcessOwnership.new]

/-- The connection may be taken wherever nothing is counted and nothing uncertain. -/
theorem Sound.tryTake (h : o.Sound) (hfenced : o.fenced = true) (hnone : o.operations = 0)
    (hcertain : o.uncertainDatabaseWork = false) : (o.tryTake granted).Sound := by
  unfold ProcessOwnership.tryTake
  split
  · exact { h with released := fun _ => ⟨hfenced, hnone, hcertain⟩ }
  · exact h

theorem Sound.fence (h : o.Sound) : (o.fence granted).Sound := by
  have hlatched : ({ o with fenced := true } : ProcessOwnership).Sound :=
    { h with
      released := fun hgone => ⟨rfl, (h.released hgone).2⟩
      fenced := fun _ _ => rfl }
  unfold ProcessOwnership.fence
  dsimp only
  split
  · next hzero => exact hlatched.tryTake rfl hzero.1 hzero.2
  · exact hlatched

theorem tryTake_eq : ∃ connection, o.tryTake granted = { o with connection } := by
  unfold ProcessOwnership.tryTake
  split
  · exact ⟨false, rfl⟩
  · exact ⟨o.connection, rfl⟩

/-- A fence changes the latch and perhaps the connection. -/
theorem fence_eq : ∃ connection, o.fence granted = { o with connection, fenced := true } := by
  unfold ProcessOwnership.fence
  dsimp only
  split
  · exact tryTake_eq
  · exact ⟨o.connection, rfl⟩

@[simp] theorem fenced_fence : (o.fence granted).fenced = true := by
  obtain ⟨connection, h⟩ := @fence_eq o granted
  rw [h]

@[simp] theorem works_fence : (o.fence granted).works = o.works := by
  obtain ⟨connection, h⟩ := @fence_eq o granted
  rw [h]

@[simp] theorem quiesces_fence : (o.fence granted).quiesces = o.quiesces := by
  obtain ⟨connection, h⟩ := @fence_eq o granted
  rw [h]

/-- A drop lowers the count, ends its permit and perhaps gives up the connection. -/
theorem dropOperation_eq : ∃ connection, o.dropOperation i granted =
    { o.mapWork i ({ · with ended := true }) with connection, operations := o.operations - 1 } := by
  unfold ProcessOwnership.dropOperation
  dsimp only
  split
  · exact tryTake_eq
  · exact ⟨o.connection, rfl⟩

@[simp] theorem works_dropOperation :
    (o.dropOperation i granted).works = o.works.modify i ({ · with ended := true }) := by
  obtain ⟨connection, h⟩ := @dropOperation_eq o i granted
  rw [h]
  rfl

theorem fenced_dropOperation : (o.dropOperation i granted).fenced = o.fenced := by
  obtain ⟨connection, h⟩ := @dropOperation_eq o i granted
  rw [h]
  rfl

/-- What check and where it stands is nothing the guard depends on. -/
theorem Sound.of_checks (h : o.Sound) (lock : Option ℕ) (checks : List CheckPhase) :
    ({ o with lock, checks } : ProcessOwnership).Sound :=
  { h with }

/-! ### Permits -/

theorem modify_eq_set (hw : o.works[i]? = some w) : o.works.modify i f = o.works.set i (f w) := by
  simp [List.modify_eq_set_getElem?, hw]

/-- A change of a permit keeps the count if it leaves the permit live. -/
theorem countP_modify (hw : o.works[i]? = some w) (hlive : (f w).live = w.live) :
    (o.works.modify i f).countP Work.live = o.works.countP Work.live := by
  obtain ⟨hi, rfl⟩ := List.getElem?_eq_some_iff.mp hw
  rw [modify_eq_set hw, List.countP_set hi, hlive]
  by_cases hl : o.works[i].live = true
  · have hpos : 0 < o.works.countP Work.live := List.countP_pos_iff.mpr ⟨_, List.getElem_mem hi, hl⟩
    simp only [hl, if_true]
    omega
  · simp [hl]

theorem mem_modify {x : Work} (hw : o.works[i]? = some w) (hx : x ∈ o.works.modify i f) :
    x ∈ o.works ∨ x = f w := by
  rw [modify_eq_set hw] at hx
  exact List.mem_or_eq_of_mem_set hx

/-- A live permit is counted, so that the connection is there. -/
theorem Sound.connection_of_live (h : o.Sound) (hw : o.works[i]? = some w)
    (hlive : w.ended = false) : 0 < o.operations ∧ o.connection = true := by
  have hpos : 0 < o.operations := by
    rw [h.counted, List.countP_pos_iff]
    exact ⟨w, List.mem_of_getElem? hw, by simp [Work.live, hlive]⟩
  refine ⟨hpos, ?_⟩
  by_contra hgone
  have := (h.released (by simpa using hgone)).2.1
  omega

/-- Database work that is begun or acknowledged changes nothing the guard depends on. -/
theorem Sound.mapWork (h : o.Sound) (hw : o.works[i]? = some w) (hended : (f w).ended = w.ended)
    (hmarked : (f w).marked = w.marked) : (o.mapWork i f).Sound where
  counted := by
    rw [show (o.mapWork i f).works = o.works.modify i f from rfl,
      countP_modify hw (by simp [Work.live, hended])]
    exact h.counted
  marked x hx hm := by
    rcases mem_modify hw hx with hold | rfl
    · exact h.marked x hold hm
    · exact h.marked w (List.mem_of_getElem? hw) (hmarked ▸ hm)
  released := h.released
  fenced := h.fenced
  drained := h.drained
  locking := h.locking

/-- Work is marked while its permit is counted: no task has seen a count of zero. -/
theorem Sound.markUncertain (h : o.Sound) (hw : o.works[i]? = some w) (hlive : w.ended = false) :
    ((o.mapWork i ({ · with marked := true })).markUncertainDatabaseWork).Sound := by
  obtain ⟨hpos, hthere⟩ := h.connection_of_live hw hlive
  refine ⟨?_, fun _ _ _ => rfl, ?_, fun _ _ => rfl, h.drained, ?_⟩
  · exact h.counted.trans (countP_modify (f := ({ · with marked := true })) hw rfl).symm
  · intro hgone
    simp [markUncertainDatabaseWork, ProcessOwnership.mapWork, hthere] at hgone
  · intro hq
    have := h.drained _ hq (.inr rfl)
    omega

theorem Sound.dropOperation (h : o.Sound) (hw : o.works[i]? = some w) (hlive : w.ended = false) :
    (o.dropOperation i granted).Sound := by
  obtain ⟨hi, rfl⟩ := List.getElem?_eq_some_iff.mp hw
  obtain ⟨hpos, hthere⟩ := h.connection_of_live hw hlive
  have hdropped : ({ o.mapWork i ({ · with ended := true }) with
      operations := o.operations - 1 } : ProcessOwnership).Sound := by
    refine ⟨?_, ?_, ?_, h.fenced, ?_, h.locking⟩
    · show o.operations - 1 = (o.works.modify i ({ · with ended := true })).countP Work.live
      rw [modify_eq_set hw, List.countP_set hi, h.counted]
      simp [Work.live, hlive]
    · intro x hx hm
      rcases mem_modify hw hx with hold | rfl
      · exact h.marked x hold hm
      · exact h.marked _ (List.getElem_mem hi) hm
    · intro hgone
      simp [ProcessOwnership.mapWork, hthere] at hgone
    · intro q hq hphase
      have := h.drained q hq hphase
      show o.operations - 1 = 0
      omega
  unfold ProcessOwnership.dropOperation
  dsimp only
  split
  · next hlast => exact hdropped.tryTake hlast.2.1 hlast.1 hlast.2.2
  · exact hdropped

/-- The count is zero at an admission only before a fence, so no task relies on it. -/
theorem Sound.admitPhase (h : o.Sound) (phase : AuthorityPhase) : (o.admitPhase phase).1.Sound := by
  unfold ProcessOwnership.admitPhase
  split
  · exact h
  next hopen =>
    split
    · have hfenced : o.fenced = false := by
        by_contra hf
        exact hopen (.inl (by simpa using hf))
      refine ⟨?_, ?_, ?_, h.fenced, ?_, h.locking⟩
      · simp [h.counted, Work.live]
      · intro w hw hm
        rcases List.mem_append.mp hw with hold | hnew
        · exact h.marked w hold hm
        · obtain rfl : w = ⟨none, false, false⟩ := by simpa using hnew
          cases hm
      · intro hgone
        have := (h.released hgone).1
        rw [hfenced] at this
        cases this
      · intro q hq
        have := h.fenced q hq
        rw [hfenced] at this
        cases this
    · exact h

/-! ### Quiescing -/

/-- A quiesce may go on to a phase whose condition holds now. -/
theorem Sound.setQuiesce (h : o.Sound) {phase old : QuiescePhase} (hi : o.quiesces[i]? = some old)
    (hdrained : phase = .drained ∨ phase = .locking → o.operations = 0)
    (hlocking : phase = .locking → o.uncertainDatabaseWork = false) :
    (o.setQuiesce i phase).Sound := by
  refine { h with fenced := ?_, drained := ?_, locking := ?_ }
  · exact fun _ _ => h.fenced old (List.mem_of_getElem? hi)
  · intro q hq
    rcases List.mem_or_eq_of_mem_set hq with hold | rfl
    · exact h.drained q hold
    · exact hdrained
  · intro hq
    rcases List.mem_or_eq_of_mem_set hq with hold | hnew
    · exact h.locking hold
    · exact hlocking hnew.symm

theorem Sound.quiesce (h : o.Sound) :
    ({ o.fence granted with quiesces := o.quiesces ++ [.counting] } : ProcessOwnership).Sound := by
  have hfence : (o.fence granted).Sound := h.fence
  refine { hfence with fenced := fun _ _ => fenced_fence, drained := ?_, locking := ?_ }
  · intro q hq hphase
    rcases List.mem_append.mp hq with hold | hnew
    · exact hfence.drained q (by simpa using hold) hphase
    · obtain rfl : q = .counting := by simpa using hnew
      simp at hphase
  · intro hq
    rcases List.mem_append.mp hq with hold | hnew
    · exact hfence.locking (by simpa using hold)
    · simp at hnew

variable {e : OwnershipEvent}

theorem Sound.step (h : o.Sound) (hadm : o.Admits e) : (o.step e).1.Sound := by
  cases e with
  | admitPhase phase => exact h.admitPhase phase
  | databaseWork | acknowledge =>
    obtain ⟨w, hw, -, -⟩ := hadm
    exact h.mapWork hw rfl rfl
  | markUncertain =>
    obtain ⟨w, hw, hlive, -⟩ := hadm
    exact h.markUncertain hw hlive
  | dropOperation =>
    obtain ⟨w, hw, hlive, -⟩ := hadm
    exact h.dropOperation hw hlive
  | fence => exact h.fence
  | check =>
    simp only [ProcessOwnership.step]
    split
    · exact h
    · exact h.of_checks o.lock _
  | checkLocked i =>
    simp only [ProcessOwnership.step, ProcessOwnership.checkLocked]
    split
    · exact h.of_checks o.lock _
    · exact h.of_checks (some i) _
  | checkAnswered | checkLapsed | checkCancelled => exact h.of_checks _ _
  | checkReturned => exact h.of_checks o.lock _
  | checkFences i granted => exact h.fence.of_checks (o.fence granted).lock _
  | quiesce => exact h.quiesce
  | quiesceCounted =>
    simp only [ProcessOwnership.step]
    split
    · next hzero => exact h.setQuiesce hadm (fun _ => hzero) (by simp)
    · exact h
  | quiesceDecided =>
    have hzero := h.drained _ (List.mem_of_getElem? hadm) (.inl rfl)
    refine h.setQuiesce hadm (fun _ => hzero) fun hphase => ?_
    by_contra hmarked
    simp [Bool.of_not_eq_false hmarked] at hphase
  | quiesceTakes i =>
    have hmem := List.mem_of_getElem? hadm.1
    have hset : (o.setQuiesce i .done).Sound := h.setQuiesce hadm.1 (by simp) (by simp)
    exact { hset with
      released := fun _ => ⟨h.fenced _ hmem, h.drained _ hmem (.inr rfl), h.locking hmem⟩ }
  | quiesceLapsed =>
    obtain ⟨phase, hphase, -⟩ := hadm
    exact h.setQuiesce hphase (by simp) (by simp)

/-! ### What a step does to the latch and to one permit -/

theorem fenced_step (e : OwnershipEvent) (h : o.fenced = true) : (o.step e).1.fenced = true := by
  cases e with
  | admitPhase => simp [step, admitPhase, h]
  | dropOperation => exact fenced_dropOperation.trans h
  | fence | checkFences | quiesce => exact fenced_fence
  | markUncertain => rfl
  | check => simp [step, h]
  | checkLocked => simp [step, checkLocked, setCheck, h]
  | quiesceCounted =>
    simp only [step]
    split <;> exact h
  | _ => exact h

theorem permit_step (e : OwnershipEvent) : (∃ phase, e = .admitPhase phase) ∨ (o.step e).2 = none := by
  cases e with
  | admitPhase phase => exact .inl ⟨phase, rfl⟩
  | _ => exact .inr rfl

theorem permit_of_fenced (e : OwnershipEvent) (h : o.fenced = true) : (o.step e).2 = none := by
  rcases o.permit_step e with ⟨phase, rfl⟩ | hnone
  · simp [step, admitPhase, h]
  · exact hnone

/-- Apart from an admission a step changes at most one permit, and only a drop ends it. -/
theorem works_step (e : OwnershipEvent) : (∃ phase, e = .admitPhase phase) ∨
    ∃ i f, (o.step e).1.works = o.works.modify i f ∧
      ((∀ w, (f w).ended = w.ended) ∨ ∃ granted, e = .dropOperation i granted) := by
  have hsame {works : List Work} (h : works = o.works) :
      ∃ i f, works = o.works.modify i f ∧ ((∀ w, (f w).ended = w.ended) ∨
        ∃ granted, e = .dropOperation i granted) :=
    ⟨0, id, by rw [h, List.modify_id], .inl fun _ => rfl⟩
  cases e with
  | admitPhase phase => exact .inl ⟨phase, rfl⟩
  | databaseWork i => exact .inr ⟨i, _, rfl, .inl fun _ => rfl⟩
  | acknowledge i => exact .inr ⟨i, _, rfl, .inl fun _ => rfl⟩
  | markUncertain i => exact .inr ⟨i, _, rfl, .inl fun _ => rfl⟩
  | dropOperation i granted => exact .inr ⟨i, _, works_dropOperation, .inr ⟨granted, rfl⟩⟩
  | check | checkLocked | quiesceCounted =>
    refine .inr (hsame ?_)
    simp only [step, checkLocked, setCheck, setQuiesce]
    split <;> rfl
  | fence | checkFences | quiesce => exact .inr (hsame works_fence)
  | _ => exact .inr (hsame rfl)

theorem works_admitPhase (phase : AuthorityPhase) :
    ((o.admitPhase phase).1.works = o.works ∧ (o.admitPhase phase).2 = none) ∨
      ((o.admitPhase phase).1.works = o.works ++ [⟨none, false, false⟩] ∧
        (o.admitPhase phase).2 = some o.works.length) := by
  unfold admitPhase
  split_ifs
  · exact .inl ⟨rfl, rfl⟩
  · exact .inr ⟨rfl, rfl⟩
  · exact .inl ⟨rfl, rfl⟩

theorem ended_step (hw : (o.step e).1.works[i]? = some w) (hended : w.ended = true) :
    (∃ w', o.works[i]? = some w' ∧ w'.ended = true) ∨ ∃ granted, e = .dropOperation i granted := by
  rcases o.works_step e with ⟨phase, rfl⟩ | ⟨j, f, hworks, hf⟩
  · rcases o.works_admitPhase phase with ⟨hsame, -⟩ | ⟨hnew, -⟩
    · exact .inl ⟨w, hsame ▸ hw, hended⟩
    · simp only [step, hnew, List.getElem?_append] at hw
      split at hw
      · exact .inl ⟨w, hw, hended⟩
      · -- a fresh permit is live
        obtain rfl : w = ⟨none, false, false⟩ := by simpa using List.mem_of_getElem? hw
        cases hended
  · rw [hworks, List.getElem?_modify] at hw
    obtain ⟨w', hw', rfl⟩ := Option.map_eq_some_iff.mp hw
    by_cases hj : j = i
    · rcases hf with hf | ⟨granted, rfl⟩
      · exact .inl ⟨w', hw', by simpa [hj, hf] using hended⟩
      · exact .inr ⟨granted, by rw [hj]⟩
    · exact .inl ⟨w', hw', by simpa [hj] using hended⟩

/-- Permits are never removed from the list, and one that is handed out is on it. -/
theorem length_works_step (e : OwnershipEvent) : o.works.length ≤ (o.step e).1.works.length ∧
      ∀ i, (o.step e).2 = some i → i < (o.step e).1.works.length := by
  have hadmit (phase : AuthorityPhase) :
      o.works.length ≤ (o.admitPhase phase).1.works.length ∧
        ∀ i, (o.admitPhase phase).2 = some i → i < (o.admitPhase phase).1.works.length := by
    rcases o.works_admitPhase phase with ⟨hworks, hout⟩ | ⟨hworks, hout⟩ <;> simp [hworks, hout]
  rcases o.works_step e with ⟨phase, rfl⟩ | ⟨j, f, hworks, -⟩
  · exact hadmit phase
  · rcases o.permit_step e with ⟨phase, rfl⟩ | hnone
    · exact hadmit phase
    · simp [hworks, hnone]

/-- Nothing admitted is left, and no database work ended without an answer. -/
def Drained (o : ProcessOwnership) : Prop :=
  o.operations = 0 ∧ o.uncertainDatabaseWork = false ∧
    ∀ w ∈ o.works, w.ended = true ∧ w.marked = false

theorem Sound.drained_of_released (h : o.Sound) (hgone : o.connection = false) : o.Drained := by
  obtain ⟨-, hzero, hcertain⟩ := h.released hgone
  refine ⟨hzero, hcertain, fun w hw => ⟨?_, ?_⟩⟩
  · have hnone := List.countP_eq_zero.mp (h.counted.symm.trans hzero) w hw
    simpa [Work.live] using hnone
  by_contra hm
  have := h.marked w hw (by simpa using hm)
  rw [hcertain] at this
  cases this

end ProcessOwnership

/-! ### Runs -/

section Runs

variable {phase : AuthorityPhase} {run : List (Transition ProcessOwnership OwnershipEvent (Option ℕ))}
  {o : ProcessOwnership}

theorem sound_of_run (h : (ownership phase).Run run o) : o.Sound := by
  refine h.invariant (P := ProcessOwnership.Sound) ?_ ?_
  · rintro s rfl
    exact .new phase
  · exact fun s e hs hadm => hs.step hadm

theorem dropped_of_ended (h : (ownership phase).Run run o) {i : ℕ} (hw : o.works[i]? = some w)
    (hended : w.ended = true) : ∃ t ∈ run, ∃ granted, t.event = .dropOperation i granted := by
  induction h generalizing w with
  | start hs =>
    obtain rfl := hs
    simp [ProcessOwnership.new] at hw
  | @step run s e hr hadm ih =>
    rcases ProcessOwnership.ended_step hw hended with ⟨w', hw', hended'⟩ | ⟨granted, rfl⟩
    · obtain ⟨t, ht, hdrop⟩ := ih hw' hended'
      exact ⟨t, List.mem_append_left _ ht, hdrop⟩
    · exact ⟨_, List.mem_append_right _ (.head _), granted, rfl⟩

/-- A permit that was handed out is there to the end of the run. -/
theorem works_of_admitted (h : (ownership phase).Run run o) : ∀ t ∈ run, ∀ i, t.output = some i →
    i < o.works.length := by
  induction h with
  | start => simp
  | @step run s e hr hadm ih =>
    intro t ht i hout
    have hgrows := s.length_works_step e
    rcases List.mem_append.mp ht with hprior | hlast
    · exact (ih t hprior i hout).trans_le hgrows.1
    · obtain rfl : t = (ownership phase).transition s e := by simpa using hlast
      exact hgrows.2 i hout

/-- In every interleaving of any number of tasks: the connection is given up only with all
admitted work ended and none of it uncertain, nothing is admitted after the fence, and whatever
was admitted was dropped or marked while the connection was held. -/
theorem released_after_all_work (h : (ownership phase).Run run o) :
    (o.connection = false → o.Drained) ∧
    (∀ before t after, run = before ++ t :: after → t.after.fenced = true →
      ∀ u ∈ after, u.output = none) ∧
    (∀ t ∈ run, ∀ i granted, t.event = .markUncertain i ∨ t.event = .dropOperation i granted →
      t.before.connection = true) ∧ (o.connection = false → ∀ t ∈ run, ∀ i, t.output = some i →
      ∃ u ∈ run, ∃ granted, u.event = .dropOperation i granted ∧ u.before.connection = true) := by
  have hheld : ∀ t ∈ run, ∀ i granted,
      t.event = .markUncertain i ∨ t.event = .dropOperation i granted →
        t.before.connection = true := by
    refine h.forall_mem fun run s e hr hadm i granted hevent => ?_
    rcases hevent with rfl | rfl
    all_goals
      obtain ⟨w, hw, hlive, -⟩ := hadm
      exact ((sound_of_run hr).connection_of_live hw hlive).2
  refine ⟨(sound_of_run h).drained_of_released, ?_, hheld, ?_⟩
  · intro before t after hrun hfenced u hu
    obtain ⟨mid, rest, rfl⟩ := List.append_of_mem hu
    -- the fence holds from `t` on, so it holds where `u` starts
    have hsplit : (ownership phase).Run ((before ++ t :: mid) ++ u :: rest) o := by
      simpa [hrun] using h
    obtain ⟨hprior, -, hu⟩ := hsplit.split
    have hlatched : u.before.fenced = true :=
      hprior.relates (R := fun a b : ProcessOwnership => a.fenced = true → b.fenced = true)
        (fun _ => id) (fun _ _ _ hab hbc ha => hbc (hab ha))
        (fun _ s e _ _ hs => ProcessOwnership.fenced_step e hs) hfenced
    rw [hu]
    exact ProcessOwnership.permit_of_fenced u.event hlatched
  · intro hgone t ht i hout
    have hi := works_of_admitted h t ht i hout
    have hended := ((sound_of_run h).drained_of_released hgone).2.2 _ (List.getElem_mem hi)
    obtain ⟨u, hu, granted, hdrop⟩ :=
      dropped_of_ended h (List.getElem?_eq_getElem hi) hended.1
    exact ⟨u, hu, granted, hdrop, hheld u hu i granted (.inr hdrop)⟩

/-- A run in which a check holds the lock while the last permit is dropped, so that only the
quiesce gives the connection up. -/
def quiescedEvents : List OwnershipEvent :=
  [.admitPhase .active, .databaseWork 0, .check, .checkLocked 0, .acknowledge 0, .quiesce true,
    .dropOperation 0 true, .checkAnswered 0 true, .quiesceCounted 0, .quiesceDecided 0,
    .quiesceTakes 0]

theorem released_after_all_work_quiesced :
    ((ownership .active).play (.new .active) quiescedEvents).2.connection = false ∧
      ((ownership .active).play (.new .active) quiescedEvents).2.Drained := by
  have hrun : (ownership .active).Run ((ownership .active).play (.new .active) quiescedEvents).1
      ((ownership .active).play (.new .active) quiescedEvents).2 :=
    Machine.run_play rfl (by decide)
  have hgone : ((ownership .active).play (.new .active) quiescedEvents).2.connection = false := by
    decide
  exact ⟨hgone, (released_after_all_work hrun).1 hgone⟩

end Runs

end BlindPass.Controller
