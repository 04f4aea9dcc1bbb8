import BlindPass.Controller.Machine
import BlindPass.Controller.Sweep

/-!
# Operations and their grants agree

An operation that is `granted` has a grant the broker may still use. One transaction breaks
this: the staging of a key rotation expires lapsed grants and leaves their operations as
they are. No later expiry pass finds such a pair, because it looks for live grants and for
executing operations. Without such a step the passes catch up: repeated at a fixed time
they leave no pending operation past its deadline, and no open native operation whose grant
has run out.
-/

namespace BlindPass.Controller

open Execution (Transition)
open Fleet (SignedEnvelope)

variable {cfg : Config} {time : ℕ} {bytes : SignedEnvelope → ℕ} {k : Kind} {K : List Kind} {s s' : Store}
  {e : Event} {now : ℕ}

/-- The grant of every `granted` operation is live. -/
def Store.Agreed (s : Store) : Prop :=
  ∀ (key : String) (o : Operation) (id : String) (g : GrantRow), s.operations[key]? = some o →
    o.status = .granted → o.grantId = some id → s.grants[id]? = some g → g.status.isLive = true

/-- A grant is for its operation's action, with a mode that goes with it. -/
def Store.Matched (s : Store) : Prop :=
  ∀ (key : String) (o : Operation) (id : String) (g : GrantRow), s.operations[key]? = some o →
    o.grantId = some id → s.grants[id]? = some g → g.grant.action = o.action ∧
      Fleet.supportedOperationBinding g.grant.action g.grant.mode = true

/-- At the time `now` no pending operation is past its deadline, and no open operation for a
native mode has a grant past its expiry. -/
structure Store.Drained (s : Store) (now : ℕ) : Prop where
  pending : ∀ (key : String) (o : Operation), s.operations[key]? = some o →
    o.status.isPending = true → now < o.expiresAtMs
  opened : ∀ (key : String) (o : Operation) (id : String) (g : GrantRow),
    s.operations[key]? = some o → o.status.isOpen = true → o.mode ≠ .browserSession →
    o.grantId = some id → s.grants[id]? = some g → now < g.grant.expiresAtMs

/-! ### One statement -/

/-- Only issuing takes an operation to `granted`. -/
theorem Kind.moves_granted {a : OperationStatus} (hk : k ≠ .issue) :
    k.moves a .granted = false := by
  revert a
  cases k with
  | issue => exact absurd rfl hk
  | _ => decide

theorem Operation.Moves.granted {o o' : Operation} (h : o.Moves k.moves o') (hk : k ≠ .issue)
    (hgranted : o'.status = .granted) : o.status = .granted := by
  rcases h.status with heq | ⟨hmoves, -⟩
  · rw [← heq, hgranted]
  · rw [hgranted, Kind.moves_granted hk] at hmoves
    cases hmoves

theorem Write.agreed (hw : Write cfg time k s s') (hk : k ≠ .expire) (h : s.Agreed) :
    s'.Agreed := by
  intro key o' id g' ho' hgranted hid hg'
  cases hw with
  | administer ha =>
    rw [ha.operations] at ho'
    rw [ha.grants] at hg'
    exact h key o' id g' ho' hgranted hid hg'
  | sign _ _ | tell _ | mark _ _ | regroup _ => exact h key o' id g' ho' hgranted hid hg'
  | create _ _ hstarts =>
    rw [Table.getElem?_insert] at ho'
    split at ho'
    · cases ho'
      rw [hstarts.ungranted] at hid
      cases hid
    · exact h key o' id g' ho' hgranted hid hg'
  | approve _ _ _ _ _ _ _ hops =>
    obtain ⟨o, ho, rfl | ⟨-, hmoves⟩⟩ := hops.get_back ho'
    · exact h key o' id g' ho hgranted hid hg'
    · exact h key o id g' ho (hmoves.granted nofun hgranted) (hmoves.grantId ▸ hid) hg'
  | @issue _ _ d _ _ _ hissues =>
    rw [hissues.operations] at ho'
    rw [hissues.grants] at hg'
    by_cases hnew : id = d.grant.id
    · -- the new grant is live
      rw [if_pos hnew] at hg'
      cases hg'
      rfl
    · rw [if_neg hnew] at hg'
      split at ho'
      · -- the operation that was granted holds the new grant
        cases ho'
        exact absurd (Option.some.inj hid).symm hnew
      · exact h key o' id g' ho' hgranted hid hg'
  | evolve hevolves hops hgrants _ _ _ hagrees =>
    have hissue : k ≠ .issue := by
      rintro rfl
      cases hevolves
    obtain ⟨o, ho, hmoves⟩ := hops.get_back ho'
    obtain ⟨g, hg, -⟩ := hgrants.get_back hg'
    have hlive : g.status.isLive = true :=
      h key o id g ho (hmoves.granted hissue hgranted) (hmoves.grantId ▸ hid) hg
    exact hagrees hk key o' id g g' ho' hgranted hid hg hlive hg'

theorem Write.matched (hw : Write cfg time k s s') (hs : Coherent s) (h : s.Matched) :
    s'.Matched := by
  intro key o' id g' ho' hid hg'
  cases hw with
  | administer ha =>
    rw [ha.operations] at ho'
    rw [ha.grants] at hg'
    exact h key o' id g' ho' hid hg'
  | sign _ _ | tell _ | mark _ _ | regroup _ => exact h key o' id g' ho' hid hg'
  | create _ _ hstarts =>
    rw [Table.getElem?_insert] at ho'
    split at ho'
    · cases ho'
      rw [hstarts.ungranted] at hid
      cases hid
    · exact h key o' id g' ho' hid hg'
  | approve _ _ _ _ _ _ _ hops =>
    obtain ⟨o, ho, rfl | ⟨-, hmoves⟩⟩ := hops.get_back ho'
    · exact h key o' id g' ho hid hg'
    · rw [congrArg OperationRequest.action hmoves.request]
      exact h key o id g' ho (hmoves.grantId ▸ hid) hg'
  | @issue _ _ d o hsigned haction hissues =>
    rw [hissues.operations] at ho'
    rw [hissues.grants] at hg'
    by_cases hnew : id = d.grant.id
    · rw [if_pos hnew] at hg'
      cases hg'
      refine ⟨?_, (Fleet.Grant.fields_of_isValid hsigned.valid).2.2⟩
      split at ho'
      · cases ho'
        exact haction
      -- no other operation can hold a grant that did not exist
      obtain ⟨g, hg, -⟩ := hs.held key o' id ho' hid
      rw [hnew, hissues.fresh] at hg
      cases hg
    · rw [if_neg hnew] at hg'
      split at ho'
      · cases ho'
        exact absurd (Option.some.inj hid).symm hnew
      · exact h key o' id g' ho' hid hg'
  | evolve _ hops hgrants =>
    obtain ⟨o, ho, hmoves⟩ := hops.get_back ho'
    obtain ⟨g, hg, hsame⟩ := hgrants.get_back hg'
    rw [congrArg OperationRequest.action hmoves.request, hsame.grant]
    exact h key o id g ho (hmoves.grantId ▸ hid) hg

/-! ### One transaction -/

/-- A key rotation is staged while a lapsed grant of the node belongs to a `granted`
operation. -/
def Event.strandsGranted (s : Store) : Event → Bool
  | .stageNodeKeyRotation nodeId _ _ now _ => s.expiresGranted nodeId now
  | _ => false

theorem Event.expire_notMem (h : e.strandsGranted s = false) : .expire ∉ e.kinds s := by
  cases e with
  | stageNodeKeyRotation nodeId expectedKeyVersion draft now =>
    have hcond : s.expiresGranted nodeId now = false := h
    simp [Event.kinds, hcond, eq_ite_iff]
  | _ => simp [Event.kinds, eq_ite_iff]

/-- What the expiry passes rest on. -/
structure Store.Orderly (s : Store) : Prop where
  coherent : Coherent s
  sound : Sound s
  agreed : s.Agreed
  matched : s.Matched

theorem Writes.orderly (hw : Writes cfg time K s s') (hK : .expire ∉ K) (h : s.Orderly) :
    s'.Orderly := by
  refine Transaction.Path.invariant (P := Store.Orderly) ?_ hw h
  intro k hk s t hw h
  have hexpire : k ≠ .expire := fun heq => hK (heq ▸ hk)
  exact ⟨hw.coherent h.coherent, hw.sound h.sound, hw.agreed hexpire h.agreed,
    hw.matched h.coherent h.matched⟩

theorem step_orderly (h : s.Orderly) (hadm : e.Admitted) (hcond : e.strandsGranted s = false) :
    (s.step cfg bytes e).1.Orderly :=
  Writes.orderly (step_writes _ _ h.coherent hadm) (Event.expire_notMem hcond) h

/-- The same action has the same kind of mode. -/
theorem Store.Orderly.mode (h : s.Orderly) {key id : String} {o : Operation} {g : GrantRow}
    (ho : s.operations[key]? = some o) (hid : o.grantId = some id) (hg : s.grants[id]? = some g)
    (hmode : o.mode ≠ .browserSession) : g.grant.mode ≠ .browserSession := by
  obtain ⟨-, -, -, hbinding⟩ := h.sound.operations key o ho
  obtain ⟨haction, hgrant⟩ := h.matched key o id g ho hid hg
  intro hbrowser
  rw [hbrowser, haction] at hgrant
  rw [eq_of_beq hgrant] at hbinding
  cases hnative : o.mode with
  | browserSession => exact hmode hnative
  | file | socket =>
    rw [hnative] at hbinding
    exact absurd hbinding (by decide)

/-- Without a backlog everything is within its deadline. -/
theorem Store.Orderly.drained (h : s.Orderly) (hzero : s.backlog now = 0) : s.Drained now := by
  have hparts : Table.countWhere s.operations (Store.overdue now) = 0 ∧
      Table.countWhere s.grants (overrun now) = 0 ∧
      Table.countWhere s.operations (s.isUnconfirmed now) = 0 := by
    unfold Store.backlog at hzero
    omega
  obtain ⟨hoverdue, hoverrun, hunconfirmed⟩ := hparts
  refine ⟨?_, ?_⟩
  · intro key o ho hpending
    by_contra hpast
    refine (Table.countWhere_pos.mpr ⟨key, o, ho, ?_⟩).ne' hoverdue
    rw [Store.overdue, hpending, Bool.true_and, decide_eq_true_eq]
    exact not_lt.mp hpast
  · intro key o id g ho hopen hmode hid hg
    by_contra hpast
    have hdue : g.grant.expiresAtMs ≤ now := not_lt.mp hpast
    cases hstatus : o.status with
    | granted =>
      -- the grant is live, and the pass would have found it
      refine (Table.countWhere_pos.mpr ⟨id, g, hg, ?_⟩).ne' hoverrun
      rw [overrun, h.agreed key o id g ho hstatus hid hg, Bool.true_and]
      exact decide_eq_true hdue
    | executing =>
      refine (Table.countWhere_pos.mpr ⟨key, o, ho, ?_⟩).ne' hunconfirmed
      rw [Store.isUnconfirmed, hstatus, hid, Option.bind_some, hg]
      exact decide_eq_true ⟨hdue, h.mode ho hid hg hmode⟩
    | _ =>
      rw [hstatus] at hopen
      cases hopen

/-! ### Runs -/

/-- One expiry pass, with the clock standing still. -/
def Store.sweep (s : Store) (cfg : Config) (bytes : SignedEnvelope → ℕ) (now : ℕ) : Store :=
  (s.step cfg bytes (.expireFleetState (.still now))).1

theorem Store.Orderly.sweep (h : s.Orderly) : (s.sweep cfg bytes now).Orderly :=
  step_orderly h trivial rfl

theorem Store.Orderly.sweep_lt (h : s.Orderly) (hnow : Fleet.isPositiveInteger now = true)
    (hpos : 0 < s.backlog now) : (s.sweep cfg bytes now).backlog now < s.backlog now := by
  obtain ⟨⟨swept, summary⟩, hswept⟩ : ∃ result, s.expireFleetState cfg (.still now) = .ok result :=
    Store.expireFleetState_ok h.coherent h.sound (SweepClock.valid_still hnow)
  have heq : s.sweep cfg bytes now = swept := by
    rw [Store.sweep, Store.step, hswept]
    rfl
  rw [heq]
  exact Store.backlog_lt hswept hpos

variable {run : List (Transition Store Event Answer)}

theorem Run.orderly (h : (controller cfg bytes).Run run s)
    (hcond : ∀ t ∈ run, t.event.strandsGranted t.before = false) : s.Orderly := by
  induction h with
  | start hstart =>
    have hrun := Execution.Machine.Run.start hstart
    obtain ⟨issuerEpoch, policy, operators, -, rfl⟩ := hstart
    refine ⟨Run.coherent hrun, Run.sound hrun, ?_, ?_⟩
    all_goals
      intro key o id g ho
      exact absurd ho (by simp [Store.initial])
  | @step run s e hrun hadm ih =>
    have hbefore : s.Orderly := ih fun t ht => hcond t (List.mem_append_left _ ht)
    exact step_orderly hbefore hadm
      (hcond _ (List.mem_append_right run (.head _)))

/-- In a run that stages no key rotation over a lapsed grant of a `granted` operation: no
`granted` operation has an expired or revoked grant; and at any time of the database clock,
finitely many expiry passes drain the store. -/
theorem agreement (h : (controller cfg bytes).Run run s)
    (hcond : ∀ t ∈ run, t.event.strandsGranted t.before = false) :
    (∀ (key : String) (o : Operation) (id : String) (g : GrantRow), s.operations[key]? = some o →
      o.status = .granted → o.grantId = some id → s.grants[id]? = some g →
      g.status ≠ .expired ∧ g.status ≠ .revoked) ∧ ∀ now, 0 < now → now ≤ latestInstant →
      ∃ n, Store.Drained ((fun s => s.sweep cfg bytes now)^[n] s) now := by
  have horderly := Run.orderly h hcond
  refine ⟨?_, ?_⟩
  · intro key o id g ho hgranted hid hg
    have hlive := horderly.agreed key o id g ho hgranted hid hg
    revert hlive
    cases g.status <;> decide
  · intro now hpos hlatest
    have hnow : Fleet.isPositiveInteger now = true := by
      refine Fleet.isPositiveInteger_iff.mpr ⟨hpos, ?_⟩
      unfold latestInstant at hlatest
      omega
    have hlower : ∀ s : Store, s.Orderly → 0 < s.backlog now →
        (s.sweep cfg bytes now).backlog now < s.backlog now :=
      fun s hs hbacklog => hs.sweep_lt hnow hbacklog
    have hkeep : ∀ s : Store, s.Orderly → (s.sweep cfg bytes now).Orderly := fun s hs => hs.sweep
    obtain ⟨n, hn, hzero⟩ := Execution.exists_iterate_rank_eq_zero hkeep hlower horderly
    exact ⟨n, hn.drained hzero⟩

theorem agreement_delivered :
    ∃ n, Store.Drained ((fun s => s.sweep Sample.config (fun _ => 100) 70000)^[n]
      (Sample.play Sample.delivered).2) 70000 :=
  (agreement (Sample.run_play Sample.delivered (by decide +kernel)) (by decide +kernel)).2 70000
    (by decide) (by decide)

/-- A key rotation is staged after a delivered grant ran out: the grant expires, its operation
stays `granted`, and an expiry pass does not change that. -/
theorem disagreement : ∃ run s, (controller Sample.config fun _ => 100).Run run s ∧
    s.operations["operation-1"]?.map (fun o => (o.status, o.grantId)) =
      some (.granted, some "grant-1") ∧ s.grants["grant-1"]?.map (·.status) = some .expired ∧
    (s.sweep Sample.config (fun _ => 100) 80000).operations["operation-1"]?.map (·.status) =
      some .granted :=
  ⟨_, _, Sample.run_play (Sample.delivered ++ [Sample.stageRotation 70000]) (by decide +kernel),
    by decide +kernel,
    by decide +kernel, by decide +kernel⟩

/-- In every reachable store an expiry pass succeeds, whatever the clock shows, and at any one time
finitely many passes settle all that is due. -/
theorem sweeps_settle (h : (controller cfg bytes).Run run s) :
    (∀ clock : SweepClock, clock.Valid → ∃ result, s.expireFleetState cfg clock = .ok result) ∧
    ∀ now, Fleet.isPositiveInteger now = true →
      ∃ n, Store.backlog ((fun s => s.sweep cfg bytes now)^[n] s) now = 0 := by
  refine ⟨fun _ => Store.expireFleetState_ok (Run.coherent h) (Run.sound h), fun now hnow => ?_⟩
  have hlower : ∀ s : Store, (∃ run, (controller cfg bytes).Run run s) → 0 < s.backlog now →
      (s.sweep cfg bytes now).backlog now < s.backlog now := by
    rintro s ⟨run, h⟩ hbacklog
    obtain ⟨⟨swept, summary⟩, hswept⟩ : ∃ result, s.expireFleetState cfg (.still now) = .ok result :=
      Store.expireFleetState_ok (Run.coherent h) (Run.sound h) (SweepClock.valid_still hnow)
    rw [Store.sweep, Store.step, hswept]
    exact Store.backlog_lt hswept hbacklog
  have hkeep : ∀ s : Store, (∃ run, (controller cfg bytes).Run run s) →
      ∃ run, (controller cfg bytes).Run run (s.sweep cfg bytes now) :=
    fun s ⟨_, h⟩ => ⟨_, h.step (e := Event.expireFleetState (.still now)) trivial⟩
  obtain ⟨n, -, hzero⟩ := Execution.exists_iterate_rank_eq_zero hkeep hlower ⟨run, h⟩
  exact ⟨n, hzero⟩

theorem sweeps_settle_delivered :
    let s := (Sample.play Sample.delivered).2
    0 < s.backlog 70000 ∧ (∃ result, s.expireFleetState Sample.config (.still 70000) = .ok result) ∧
    ∃ n, Store.backlog ((fun s => s.sweep Sample.config (fun _ => 100) 70000)^[n] s) 70000 = 0 := by
  intro s
  have h := sweeps_settle (Sample.run_play Sample.delivered (by decide +kernel))
  exact ⟨by decide +kernel, h.1 _ (SweepClock.valid_still (by decide)), h.2 70000 (by decide)⟩

end BlindPass.Controller
