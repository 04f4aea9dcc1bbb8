import Mathlib

/-!
# Commands that may fail

A command works on a state and returns a value or fails. What it did before it failed stays done,
unless it takes it back itself. What a command achieves is said by a triple: what holds before,
what holds of the value and the state if it returns, and what holds of the state if it fails.
-/

/-- A command on states `σ` with failures `ε`. -/
def Command (σ ε α : Type) : Type := σ → σ × Except ε α

namespace Command

variable {σ ε α β : Type}

/-- One command after the other, up to the first failure. -/
def bind (c : Command σ ε α) (f : α → Command σ ε β) : Command σ ε β := fun s =>
  match c s with
  | (s', .ok a) => f a s'
  | (s', .error e) => (s', .error e)

instance : Monad (Command σ ε) where
  pure a := fun s => (s, .ok a)
  bind := bind

/-- The state. -/
def get : Command σ ε σ := fun s => (s, .ok s)

/-- Change the state. -/
def modify (f : σ → σ) : Command σ ε Unit := fun s => (f s, .ok ())

/-- Change nothing and fail. -/
def fail (e : ε) : Command σ ε α := fun s => (s, .error e)

/-- The result of a computation without effects. -/
def lift (r : Except ε α) : Command σ ε α := fun s => (s, r)

/-- Repair the state if the command fails. -/
def onFailure (c : Command σ ε α) (undo : σ → σ) : Command σ ε α := fun s =>
  match c s with
  | (s', .ok a) => (s', .ok a)
  | (s', .error e) => (undo s', .error e)

/-- Go on with what the command returned, a failure included. -/
def attempt (c : Command σ ε α) : Command σ ε (Except ε α) := fun s => ((c s).1, .ok (c s).2)

/-- Go on whatever became of the command. -/
def ignore (c : Command σ ε α) : Command σ ε Unit := fun s => ((c s).1, .ok ())

/-- The command, if the condition holds. -/
def when (c : Command σ ε Unit) (p : Bool) : Command σ ε Unit := if p then c else pure ()

theorem bind_ok {c : Command σ ε α} {f : α → Command σ ε β} {s s' : σ} {a : α}
    (h : c s = (s', .ok a)) : (c >>= f) s = f a s' := by
  show bind c f s = _
  rw [bind, h]

@[simp] theorem get_bind (f : σ → Command σ ε β) (s : σ) : (get >>= f) s = f s s := rfl

@[simp] theorem modify_bind (g : σ → σ) (f : Unit → Command σ ε β) (s : σ) :
    (modify g >>= f) s = f () (g s) := rfl

/-- A repair does not turn a failure into success. -/
theorem onFailure_ok_iff {c : Command σ ε α} {undo : σ → σ} {s : σ} {a : α} :
    (c.onFailure undo s).2 = .ok a ↔ (c s).2 = .ok a := by
  unfold onFailure
  rcases c s with ⟨s', error | a⟩ <;> simp

/-! ### Triples -/

/-- Started where `P` holds, the command returns where `Q` holds or fails where `E` holds. -/
def Ensures (P : σ → Prop) (c : Command σ ε α) (Q : α → σ → Prop) (E : σ → Prop) : Prop :=
  ∀ s, P s → (∀ a, (c s).2 = .ok a → Q a (c s).1) ∧ (∀ e, (c s).2 = .error e → E (c s).1)

/-- The command leads from `P` to `P`, whether it returns or fails. -/
abbrev Keeps (P : σ → Prop) (c : Command σ ε α) : Prop := Ensures P c (fun _ => P) P

namespace Ensures

variable {P P' E E' : σ → Prop} {Q Q' : α → σ → Prop} {R : β → σ → Prop} {c : Command σ ε α}
  {f : α → Command σ ε β}

theorem weaken (h : Ensures P c Q E) (hP : ∀ s, P' s → P s) (hQ : ∀ a s, Q a s → Q' a s)
    (hE : ∀ s, E s → E' s) : Ensures P' c Q' E' := by
  intro s hs
  obtain ⟨hok, herror⟩ := h s (hP s hs)
  exact ⟨fun a ha => hQ a _ (hok a ha), fun e he => hE _ (herror e he)⟩

theorem pure {a : α} (h : ∀ s, P s → Q a s) : Ensures P (Pure.pure a : Command σ ε α) Q E := by
  intro s hs
  refine ⟨fun b hb => ?_, fun e he => absurd he nofun⟩
  cases hb
  exact h s hs

theorem bind (hc : Ensures P c Q E) (hf : ∀ a, Ensures (Q a) (f a) R E) :
    Ensures P (c >>= f) R E := by
  intro s hs
  obtain ⟨hok, herror⟩ := hc s hs
  have hbind : (c >>= f) s =
      match c s with
      | (s', .ok a) => f a s'
      | (s', .error e) => (s', .error e) := rfl
  rw [hbind]
  -- the first command decides whether there is a second one
  match hcs : c s with
  | (s', .ok a) =>
    rw [hcs] at hok
    exact hf a s' (hok a rfl)
  | (s', .error e) =>
    rw [hcs] at herror
    exact ⟨fun b hb => absurd hb nofun, fun _ _ => herror e rfl⟩

theorem get {f : σ → Command σ ε β} (h : ∀ s₀, P s₀ → Ensures (fun s => s = s₀) (f s₀) R E) :
    Ensures P (Command.get >>= f) R E := by
  intro s hs
  exact h s hs s rfl

theorem modify {g : σ → σ} {Q : Unit → σ → Prop} (h : ∀ s, P s → Q () (g s)) :
    Ensures P (Command.modify g : Command σ ε Unit) Q E := by
  intro s hs
  exact ⟨fun _ _ => h s hs, fun e he => absurd he nofun⟩

theorem fail {e : ε} (h : ∀ s, P s → E s) : Ensures P (Command.fail e : Command σ ε α) Q E := by
  intro s hs
  exact ⟨fun a ha => absurd ha nofun, fun _ _ => h s hs⟩

theorem lift {r : Except ε α} (hok : ∀ a, r = .ok a → ∀ s, P s → Q a s) (hE : ∀ s, P s → E s) :
    Ensures P (Command.lift r) Q E := by
  intro s hs
  exact ⟨fun a ha => hok a ha s hs, fun _ _ => hE s hs⟩

theorem onFailure {undo : σ → σ} (hc : Ensures P c Q E') (h : ∀ s, E' s → E (undo s)) :
    Ensures P (c.onFailure undo) Q E := by
  intro s hs
  obtain ⟨hok, herror⟩ := hc s hs
  unfold Command.onFailure
  match hcs : c s with
  | (s', .ok a) =>
    rw [hcs] at hok
    exact ⟨hok, fun _ he => absurd he nofun⟩
  | (s', .error e) =>
    rw [hcs] at herror
    exact ⟨fun _ ha => absurd ha nofun, fun _ _ => h s' (herror e rfl)⟩

theorem ignore {Q : Unit → σ → Prop} (hc : Ensures P c (fun _ => Q ()) (Q ())) :
    Ensures P c.ignore Q E := by
  intro s hs
  obtain ⟨hok, herror⟩ := hc s hs
  refine ⟨fun _ _ => ?_, fun e he => absurd he nofun⟩
  show Q () (c s).1
  cases hcs : (c s).2 with
  | ok a => exact hok a hcs
  | error e => exact herror e hcs

theorem when {p : Bool} {c : Command σ ε Unit} {Q : Unit → σ → Prop}
    (hc : p = true → Ensures P c Q E) (hskip : p = false → ∀ s, P s → Q () s) :
    Ensures P (c.when p) Q E := by
  unfold Command.when
  cases p with
  | true => exact hc rfl
  | false => exact pure (hskip rfl)

end Ensures

end Command
