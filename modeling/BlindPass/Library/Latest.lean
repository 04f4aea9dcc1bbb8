import Mathlib

/-!
# The newest of what was delivered

A cell that takes a value of a higher version and ignores the others holds the newest of all
values it was given, whatever their order and however often each of them came. Given that no two
of them have one version, this determines the cell.
-/

/-- The cell holds a newest of the delivered values, if any was delivered. -/
structure Latest {α : Type*} (version : α → ℕ) (P : α → Prop) (cell : Option α) : Prop where
  delivered : ∀ x, cell = some x → P x
  known : ∀ x, P x → ∃ y, cell = some y ∧ version x ≤ version y

namespace Latest

variable {α : Type*} {version : α → ℕ} {P P' : α → Prop} {cell : Option α} {x y : α}

theorem empty (h : ∀ x, ¬ P x) : Latest version P none :=
  ⟨nofun, fun x hx => absurd hx (h x)⟩

theorem congr (h : Latest version P cell) (hP : ∀ x, P x ↔ P' x) : Latest version P' cell :=
  ⟨fun x hx => (hP x).mp (h.delivered x hx), fun x hx => h.known x ((hP x).mpr hx)⟩

/-- A value that is not newer is ignored. -/
theorem keep (h : Latest version P cell) (hy : cell = some y) (hle : version x ≤ version y) :
    Latest version (fun z => P z ∨ z = x) cell where
  delivered z hz := .inl (h.delivered z hz)
  known z hz := by
    rcases hz with hz | rfl
    · exact h.known z hz
    · exact ⟨y, hy, hle⟩

theorem replace (h : Latest version P cell) (hnew : ∀ y, cell = some y → version y < version x) :
    Latest version (fun z => P z ∨ z = x) (some x) where
  delivered z hz := .inr (Option.some.inj hz).symm
  known z hz := by
    refine ⟨x, rfl, ?_⟩
    rcases hz with hz | rfl
    · obtain ⟨y, hy, hle⟩ := h.known z hz
      exact hle.trans (Nat.le_of_lt (hnew y hy))
    · exact le_rfl

/-- The cell holds the one delivered value that none exceeds. -/
theorem eq_some_iff (h : Latest version P cell)
    (hunique : ∀ x y, P x → P y → version x = version y → x = y) :
    cell = some x ↔ P x ∧ ∀ y, P y → version y ≤ version x := by
  constructor
  · intro hx
    refine ⟨h.delivered x hx, fun y hy => ?_⟩
    obtain ⟨z, hz, hle⟩ := h.known y hy
    obtain rfl := Option.mem_unique hx hz
    exact hle
  · rintro ⟨hx, hnewest⟩
    obtain ⟨y, hy, hle⟩ := h.known x hx
    have hPy := h.delivered y hy
    rwa [hunique x y hx hPy (Nat.le_antisymm hle (hnewest y hPy))]

/-- Two cells that were given the same values hold the same. -/
theorem unique {cell' : Option α} (h : Latest version P cell) (h' : Latest version P cell')
    (hunique : ∀ x y, P x → P y → version x = version y → x = y) : cell = cell' := by
  apply Option.ext
  intro x
  exact (h.eq_some_iff hunique).trans (h'.eq_some_iff hunique).symm

end Latest
