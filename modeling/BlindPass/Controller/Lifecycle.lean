import BlindPass.Controller.Machine

/-!
# The lifecycle of operations and grants

More than a dozen statements write the status columns, some of them guarded by the status
they found and some by the row's key only. What each kind of statement does to a status is
known; here it is shown that the kinds of one transaction never chain, so a transaction
changes a status as one of its statements does, and that every such change is a step of
one fixed lifecycle.
-/

namespace BlindPass.Controller

open Execution (Transition)
open Fleet (SignedEnvelope)

/-- The statuses an operation may have next. -/
def OperationStatus.next : OperationStatus → List OperationStatus
  | .awaitingApproval => [.requested, .denied, .cancelled]
  | .requested => [.granted, .denied, .cancelled]
  | .granted => [.executing, .completed, .uncertain, .failed, .revoked]
  | .executing => [.completed, .uncertain, .failed, .revoked]
  | .uncertain => [.completed, .revoked]
  | .denied | .cancelled | .completed | .failed | .revoked => []

/-- The statuses a grant may have next. -/
def GrantStatus.next : GrantStatus → List GrantStatus
  | .issued => [.delivered, .consumed, .expired, .revoked]
  | .delivered => [.consumed, .expired, .revoked]
  | .consumed | .expired => [.revoked]
  | .revoked => []

/-- No row is lost between the two stores, and each one made at most one step of its
lifecycle. A step of an operation counts up its version. -/
structure Store.Follows (s s' : Store) : Prop where
  operations : Table.Extends (fun _ o o' => o'.status ≠ o.status →
    o'.status ∈ o.status.next ∧ o.version < o'.version) s.operations s'.operations
  grants : Table.Extends (fun _ g g' => (g'.status ≠ g.status → g'.status ∈ g.status.next) ∧
    ∀ time, g.consumedAtMs = some time → g'.consumedAtMs = some time) s.grants s'.grants

/-- Rows at the end of their lifecycle stay as they are. -/
structure Store.Settled (s s' : Store) : Prop where
  operations : Table.Extends (fun _ o o' => o.status.next = [] → o'.status = o.status)
    s.operations s'.operations
  grants : Table.Extends (fun _ g g' => (g.status.next = [] → g'.status = g.status) ∧
    ∀ time, g.consumedAtMs = some time → g'.consumedAtMs = some time) s.grants s'.grants

variable {cfg : Config} {time : ℕ} {bytes : SignedEnvelope → ℕ} {k : Kind} {K : List Kind} {s s' : Store}
  {e : Event}

/-! ### One transaction -/

theorem Kind.moves_next {a b : OperationStatus} (h : k.moves a b = true) : b ∈ a.next := by
  revert a b
  cases k <;> decide

theorem Kind.grantMoves_next {a b : GrantStatus} (h : k.grantMoves a b = true) : b ∈ a.next := by
  revert a b
  cases k <;> decide

/-- The kinds of a transaction never chain, whichever of its conditional kinds it has. -/
theorem Event.unchained : Kind.Unchained (e.kinds s) := by
  cases e with
  | issueOperationGrants drafts now =>
    dsimp only [Event.kinds]
    cases s.deniesUnclosed drafts now <;> decide +kernel
  | revokeNode nodeId revocations nodeRevocation now =>
    dsimp only [Event.kinds]
    cases s.failsDelivered nodeId now <;> decide +kernel
  | stageNodeKeyRotation nodeId expectedKeyVersion draft now =>
    dsimp only [Event.kinds]
    cases s.expiresGranted nodeId now <;> cases s.cancelsUnclosed nodeId <;> decide +kernel
  | expireFleetState clock =>
    dsimp only [Event.kinds]
    cases s.overdueBetween clock.targets clock.operations <;> decide +kernel
  | fleetFencePurge =>
    dsimp only [Event.kinds]
    cases s.fencesUnclosed <;> decide +kernel
  | _ =>
    dsimp only [Event.kinds]
    decide +kernel

/-- Statements that do not chain follow the lifecycles. -/
theorem Writes.follows (hK : Kind.Unchained K) (hw : Writes cfg time K s s') : s.Follows s' where
  operations := by
    refine (hw.operations hK).mono fun _ o o' hadvances hne => ?_
    rcases hadvances.status with heq | ⟨hmoves, hlt⟩
    · exact absurd heq hne
    · obtain ⟨k, -, hk⟩ := List.any_eq_true.mp hmoves
      exact ⟨Kind.moves_next hk, hlt⟩
  grants := by
    refine (hw.grants hK).mono fun _ g g' hmoves => ⟨fun hne => ?_, hmoves.consumedAtMs⟩
    rcases hmoves.status with heq | hmoved
    · exact absurd heq hne
    · obtain ⟨k, -, hk⟩ := List.any_eq_true.mp hmoved
      exact Kind.grantMoves_next hk

theorem step_follows (hs : Coherent s) (hadm : e.Admitted) : s.Follows (s.step cfg bytes e).1 :=
  (step_writes _ _ hs hadm).follows Event.unchained

/-! ### Runs -/

theorem Store.Follows.settled (h : s.Follows s') : s.Settled s' where
  operations := by
    refine h.operations.mono fun _ o o' hstep hlast => ?_
    by_contra hne
    have hnext := (hstep hne).1
    rw [hlast] at hnext
    exact List.not_mem_nil hnext
  grants := by
    refine h.grants.mono fun _ g g' hstep => ⟨fun hlast => ?_, hstep.2⟩
    by_contra hne
    have hnext := hstep.1 hne
    rw [hlast] at hnext
    exact List.not_mem_nil hnext

theorem Store.Settled.refl : s.Settled s :=
  ⟨.refl fun _ _ _ => rfl, .refl fun _ _ => ⟨fun _ => rfl, fun _ => id⟩⟩

theorem Store.Settled.trans {s'' : Store} (h₁ : s.Settled s') (h₂ : s'.Settled s'') :
    s.Settled s'' where
  operations := by
    refine h₁.operations.trans (fun _ o o' o'' h h' hlast => ?_) h₂.operations
    have hkept := h hlast
    rw [h' (hkept ▸ hlast), hkept]
  grants := by
    refine h₁.grants.trans (fun _ g g' g'' h h' => ⟨fun hlast => ?_, ?_⟩) h₂.grants
    · have hkept := h.1 hlast
      rw [h'.1 (hkept ▸ hlast), hkept]
    · intro time htime
      exact h'.2 time (h.2 time htime)

variable {run : List (Transition Store Event Answer)}

/-- Every transaction follows the lifecycles, and what has come to the end of one is as it
was in every later state. -/
theorem lifecycle (h : (controller cfg bytes).Run run s) : (∀ t ∈ run, t.before.Follows t.after) ∧
      ∀ before t after, run = before ++ t :: after → t.after.Settled s := by
  refine ⟨h.forall_mem ?_, ?_⟩
  · intro run s e hrun hadm
    exact step_follows (Run.coherent hrun) hadm
  rintro before t after rfl
  refine h.relates (R := Store.Settled) (fun _ => .refl) (fun _ _ _ => Store.Settled.trans) ?_
  intro run s e hrun hadm
  exact (step_follows (Run.coherent hrun) hadm).settled

theorem lifecycle_delivered :
    (Sample.play Sample.delivered).2.grants["grant-1"]?.map (·.status) = some .delivered ∧
      ∀ t ∈ (Sample.play Sample.delivered).1, t.before.Follows t.after :=
  ⟨by decide +kernel,
    (lifecycle (Execution.Machine.run_play Sample.start_admitted (by decide +kernel))).1⟩

end BlindPass.Controller
