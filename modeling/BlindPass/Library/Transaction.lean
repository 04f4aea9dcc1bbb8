import Mathlib

/-!
# Transactions made of statements

A transaction runs several statements one after the other, and fails as a whole if one of
them fails. What each kind of statement may do is said once, as a relation
`write : κ → σ → σ → Prop` between the state before and after it. A transaction is then
described by the kinds of its statements, `Path write K s t`, and everything else about it
follows from what is known about these kinds.
-/

namespace Transaction

universe u

variable {σ κ ε α : Type*} {write : κ → σ → σ → Prop} {K K' : List κ} {k : κ} {s t u : σ}

/-- `t` is reached from `s` by statements of the kinds `K`. -/
def Path (write : κ → σ → σ → Prop) (K : List κ) : σ → σ → Prop :=
  Relation.ReflTransGen fun s t => ∃ k ∈ K, write k s t

namespace Path

theorem refl : Path write K s s := Relation.ReflTransGen.refl

theorem single (h : write k s t) (hk : k ∈ K) : Path write K s t :=
  Relation.ReflTransGen.single ⟨k, hk, h⟩

theorem trans (h₁ : Path write K s t) (h₂ : Path write K t u) : Path write K s u :=
  Relation.ReflTransGen.trans h₁ h₂

/-- A statement comes first. -/
theorem head (h : write k s t) (hk : k ∈ K) (hrest : Path write K t u) : Path write K s u :=
  Relation.ReflTransGen.head ⟨k, hk, h⟩ hrest

/-- A statement comes last. -/
theorem tail (hfirst : Path write K s t) (h : write k t u) (hk : k ∈ K) : Path write K s u :=
  Relation.ReflTransGen.tail hfirst ⟨k, hk, h⟩

theorem mono (h : Path write K s t) (hK : K ⊆ K') : Path write K' s t := by
  refine Relation.ReflTransGen.mono ?_ s t h
  rintro s t ⟨k, hk, hw⟩
  exact ⟨k, hK hk, hw⟩

theorem invariant {P : σ → Prop} (hstep : ∀ k ∈ K, ∀ s t, write k s t → P s → P t)
    (h : Path write K s t) (hs : P s) : P t := by
  induction h with
  | refl => exact hs
  | tail _ hw ih =>
    obtain ⟨k, hk, hw⟩ := hw
    exact hstep k hk _ _ hw ih

/-- What every statement of the transaction relates, the transaction relates. -/
theorem relates {R : σ → σ → Prop} (hrefl : ∀ s, R s s) (htrans : ∀ s t u, R s t → R t u → R s u)
    (hstep : ∀ k ∈ K, ∀ s t, write k s t → R s t) (h : Path write K s t) : R s t := by
  induction h with
  | refl => exact hrefl s
  | @tail t u _ hw ih =>
    obtain ⟨k, hk, hw⟩ := hw
    exact htrans s t u ih (hstep k hk t u hw)

end Path

/-! ### Computations that may fail -/

/-- An optional value that a statement insists on. -/
theorem elim_eq_ok {x : Option α} {e : ε} {a : α} (h : x.elim (.error e) Except.ok = .ok a) :
    x = some a := by
  cases x with
  | none => cases h
  | some => rw [Except.ok.inj h]

theorem map_eq_ok {ε α β : Type*} {x : Except ε α} {f : α → β} {b : β} :
    x.map f = .ok b ↔ ∃ a, x = .ok a ∧ f a = b := by
  cases x with
  | error | ok => simp [Except.map]

variable {β γ : Type u} {l : List α} {P : List α → σ → Prop} {f : σ → α → Except ε σ}

theorem bind_eq_ok {x : Except ε β} {f : β → Except ε γ} {c : γ} :
    x >>= f = .ok c ↔ ∃ b, x = .ok b ∧ f b = .ok c := by
  cases x with
  | error | ok => simp [bind, Except.bind]

theorem bind_ok {x : Except ε β} {f : β → Except ε γ} (hx : ∃ b, x = .ok b)
    (hf : ∀ b, x = .ok b → ∃ c, f b = .ok c) : ∃ c, x >>= f = .ok c := by
  obtain ⟨b, hb⟩ := hx
  obtain ⟨c, hc⟩ := hf b hb
  exact ⟨c, bind_eq_ok.mpr ⟨b, hb, hc⟩⟩

/-- A list of results has one for each element, and no others. -/
theorem mem_of_mapM {f : α → Except ε β} {results : List β} (h : l.mapM f = .ok results) :
    (∀ a ∈ l, ∃ b ∈ results, f a = .ok b) ∧ ∀ b ∈ results, ∃ a ∈ l, f a = .ok b := by
  induction l generalizing results with
  | nil =>
    obtain rfl : results = [] := by simpa [pure, Except.pure, eq_comm] using h
    exact ⟨List.forall_mem_nil _, List.forall_mem_nil _⟩
  | cons a rest ih =>
    rw [List.mapM_cons, bind_eq_ok] at h
    obtain ⟨b, hb, h⟩ := h
    obtain ⟨tail, htail, h⟩ := bind_eq_ok.mp h
    cases h
    obtain ⟨hforth, hback⟩ := ih htail
    refine ⟨?_, ?_⟩
    · intro a' ha'
      rcases List.mem_cons.mp ha' with rfl | ha'
      · exact ⟨b, .head _, hb⟩
      · obtain ⟨b', hb', hf⟩ := hforth a' ha'
        exact ⟨b', .tail b hb', hf⟩
    · intro b' hb'
      rcases List.mem_cons.mp hb' with rfl | hb'
      · exact ⟨a, .head _, hb⟩
      · obtain ⟨a', ha', hf⟩ := hback b' hb'
        exact ⟨a', .tail a ha', hf⟩

/-- `P rest s` is the loop's invariant: the state is `s` and `rest` is left to do. -/
theorem foldlM_induct (hstep : ∀ a rest s t, P (a :: rest) s → f s a = .ok t → P rest t)
    (h : l.foldlM f s = .ok t) (hs : P l s) : P [] t := by
  induction l generalizing s with
  | nil =>
    obtain rfl : s = t := by simpa [pure, Except.pure] using h
    exact hs
  | cons a rest ih =>
    rw [List.foldlM_cons, bind_eq_ok] at h
    obtain ⟨u, hu, hrest⟩ := h
    exact ih hrest (hstep a rest s u hs hu)

/-- A loop whose invariant lets every step succeed succeeds. -/
theorem foldlM_ok (hstep : ∀ a rest s, P (a :: rest) s → ∃ t, f s a = .ok t ∧ P rest t) (hs : P l s)
    : ∃ t, l.foldlM f s = .ok t := by
  induction l generalizing s with
  | nil => exact ⟨s, rfl⟩
  | cons a rest ih =>
    obtain ⟨u, hu, hrest⟩ := hstep a rest s hs
    obtain ⟨t, ht⟩ := ih hrest
    refine ⟨t, ?_⟩
    rw [List.foldlM_cons, hu]
    exact ht

/-- As `foldlM_induct`, for a loop that cannot fail. -/
theorem foldl_induct {f : σ → α → σ} (hstep : ∀ a rest s, P (a :: rest) s → P rest (f s a))
    (hs : P l s) : P [] (l.foldl f s) := by
  induction l generalizing s with
  | nil => exact hs
  | cons a rest ih => exact ih (hstep a rest s hs)

end Transaction
