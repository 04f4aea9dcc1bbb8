import BlindPass.Library.Execution

/-!
# Programs that share a machine

A machine serves several callers at once. A caller's program reads the state or has the machine
take an event, and goes on with what it got; before each of its actions the machine may take any
events of the other callers. What a program achieves is said by assertions about the run so far
and the state reached. The others cannot break an assertion that is stable, so only stable
assertions are worth carrying from one action to the next.
-/

namespace Execution

/-- A caller of a machine with states `σ`, events `ε` and answers `ω`. -/
inductive Program (σ ε ω α : Type) : Type
  | done (a : α)
  | read (k : σ → Program σ ε ω α)
  | call (e : ε) (k : ω → Program σ ε ω α)

variable {σ ε ω α β : Type} {m : Machine σ ε ω}

namespace Program

/-- One program after the other. -/
def bind (p : Program σ ε ω α) (f : α → Program σ ε ω β) : Program σ ε ω β :=
  match p with
  | done a => f a
  | read k => .read fun s => (k s).bind f
  | call e k => .call e fun o => (k o).bind f

instance : Monad (Program σ ε ω) where
  pure := done
  bind := bind

/-- Read a part of the state. -/
def get (f : σ → α) : Program σ ε ω α := .read fun s => .done (f s)

/-- Have the machine take an event. -/
def send (e : ε) : Program σ ε ω ω := .call e .done

/-- `p.Exec m run s run' s' a`: started after `run` in the state `s`, the program returns `a`
after `run'` in the state `s'`. -/
inductive Exec (m : Machine σ ε ω) : Program σ ε ω α → List (Transition σ ε ω) → σ →
    List (Transition σ ε ω) → σ → α → Prop
  | done {a : α} {run s} : Exec m (.done a) run s run s a
  | read {k run s run' s'} {a : α} :
      Exec m (k s) run s run' s' a → Exec m (.read k) run s run' s' a
  | call {e k run s run' s'} {a : α} : m.Admits s e →
      Exec m (k (m.step s e).2) (run ++ [m.transition s e]) (m.step s e).1 run' s' a →
      Exec m (.call e k) run s run' s' a
  | other {p run s run' s'} {a : α} (e : ε) : m.Admits s e →
      Exec m p (run ++ [m.transition s e]) (m.step s e).1 run' s' a → Exec m p run s run' s' a

end Program

/-- No admitted event breaks the assertion. -/
def Machine.Stable (m : Machine σ ε ω) (P : List (Transition σ ε ω) → σ → Prop) : Prop :=
  ∀ run s e, m.Admits s e → P run s → P (run ++ [m.transition s e]) (m.step s e).1

theorem Machine.Stable.and {P Q : List (Transition σ ε ω) → σ → Prop} (hP : m.Stable P)
    (hQ : m.Stable Q) : m.Stable fun run s => P run s ∧ Q run s := by
  intro run s e hadm h
  exact ⟨hP run s e hadm h.1, hQ run s e hadm h.2⟩

theorem Machine.stable_run : m.Stable m.Run := fun _ _ _ hadm h => h.step hadm

/-- The machine as long as a condition holds. -/
def Machine.within (m : Machine σ ε ω) (C : σ → Prop) : Machine σ ε ω where
  Start := m.Start
  Admits s e := m.Admits s e ∧ C (m.step s e).1
  step := m.step

variable {C : σ → Prop}

theorem Machine.Stable.within {P : List (Transition σ ε ω) → σ → Prop} (hP : m.Stable P) :
    (m.within C).Stable P :=
  fun run s e hadm h => hP run s e hadm.1 h

theorem Machine.stable_within : (m.within C).Stable fun _ s => C s :=
  fun _ _ _ hadm _ => hadm.2

namespace Program

variable {p : Program σ ε ω α} {run run' : List (Transition σ ε ω)} {s s' : σ} {a : α}

/-- An execution adds to the run. -/
theorem Exec.isPrefix (h : Exec m p run s run' s' a) : run <+: run' := by
  induction h with
  | done => exact List.prefix_rfl
  | read _ ih => exact ih
  | call _ _ ih | other _ _ _ ih => exact (List.prefix_append _ _).trans ih

/-- An execution during which the condition holds. -/
theorem Exec.within {new : List (Transition σ ε ω)} (h : Exec m p run s run' s' a)
    (hrun : run' = run ++ new) (hC : ∀ u ∈ new, C u.after) :
    Exec (m.within C) p run s run' s' a := by
  -- the event that comes first is the head of what is new
  have hhead : ∀ {run : List (Transition σ ε ω)} {new t}, run ++ [t] <+: run' →
      run' = run ++ new → ∃ rest, new = t :: rest ∧ run' = run ++ [t] ++ rest := by
    rintro run new t ⟨rest, hrest⟩ hnew
    refine ⟨rest, ?_, hrest.symm⟩
    rw [hnew, List.append_assoc] at hrest
    exact (List.append_cancel_left hrest).symm
  induction h generalizing new with
  | done => exact .done
  | read _ ih => exact .read (ih hrun hC hhead)
  | call hadm hexec ih =>
    obtain ⟨rest, rfl, hrest⟩ := hhead hexec.isPrefix hrun
    exact .call ⟨hadm, hC _ (.head _)⟩
      (ih hrest (fun u hu => hC u (.tail _ hu)) hhead)
  | other e hadm hexec ih =>
    obtain ⟨rest, rfl, hrest⟩ := hhead hexec.isPrefix hrun
    exact .other e ⟨hadm, hC _ (.head _)⟩
      (ih hrest (fun u hu => hC u (.tail _ hu)) hhead)

variable {f : α → Program σ ε ω β} {e : ε}

/-- An execution of two programs in a row is one of each. -/
theorem Exec.split {b : β} (h : Exec m (p.bind f) run s run' s' b) :
    ∃ run₁ s₁ a, Exec m p run s run₁ s₁ a ∧ Exec m (f a) run₁ s₁ run' s' b := by
  generalize hq : p.bind f = q at h
  induction h generalizing p with
  | done =>
    cases p with
    | done a => exact ⟨_, _, a, .done, by rw [show f a = _ from hq]; exact .done⟩
    | read | call => cases hq
  | read hexec ih =>
    cases p with
    | done a => exact ⟨_, _, a, .done, by rw [show f a = _ from hq]; exact .read hexec⟩
    | read =>
      obtain rfl := Program.read.inj hq
      obtain ⟨run₁, s₁, a, hfirst, hrest⟩ := ih rfl
      exact ⟨run₁, s₁, a, .read hfirst, hrest⟩
    | call => cases hq
  | call hadm hexec ih =>
    cases p with
    | done a => exact ⟨_, _, a, .done, by rw [show f a = _ from hq]; exact .call hadm hexec⟩
    | read => cases hq
    | call =>
      obtain ⟨rfl, rfl⟩ := Program.call.inj hq
      obtain ⟨run₁, s₁, a, hfirst, hrest⟩ := ih rfl
      exact ⟨run₁, s₁, a, .call hadm hfirst, hrest⟩
  | other e hadm hexec ih =>
    obtain ⟨run₁, s₁, a, hfirst, hrest⟩ := ih hq
    exact ⟨run₁, s₁, a, .other e hadm hfirst, hrest⟩

/-! ### What a program ensures -/

/-- Every execution from `P` that returns `a` ends in `Q a`. -/
def Ensures (m : Machine σ ε ω) (P : List (Transition σ ε ω) → σ → Prop) (p : Program σ ε ω α)
    (Q : α → List (Transition σ ε ω) → σ → Prop) : Prop :=
  ∀ run s run' s' a, P run s → Exec m p run s run' s' a → Q a run' s'

variable {P P' : List (Transition σ ε ω) → σ → Prop} {Q Q' : α → List (Transition σ ε ω) → σ → Prop}

theorem Ensures.weaken (h : Ensures m P p Q) (hP : ∀ run s, P' run s → P run s)
    (hQ : ∀ a run s, Q a run s → Q' a run s) : Ensures m P' p Q' :=
  fun run s run' s' a hpre hexec => hQ a run' s' (h run s run' s' a (hP run s hpre) hexec)

/-- What is known of values at the start may be assumed. -/
theorem Ensures.assume {G : Prop} (hP : ∀ run s, P' run s → P run s ∧ G)
    (h : G → Ensures m P p Q) : Ensures m P' p Q := by
  intro run s run' s' a hpre hexec
  obtain ⟨hstart, hfact⟩ := hP run s hpre
  exact h hfact run s run' s' a hstart hexec

theorem Ensures.pure (hQ : m.Stable (Q a)) (h : ∀ run s, P run s → Q a run s) :
    Ensures m P (.done a) Q := by
  intro run s run' s' b hpre hexec
  have hstart := h run s hpre
  clear hpre
  generalize hp : Program.done a = p at hexec
  induction hexec with
  | done =>
    obtain rfl := Program.done.inj hp
    exact hstart
  | read | call => cases hp
  | other e hadm _ ih => exact ih (hQ _ _ e hadm hstart) hp

/-- What was read was the state at that moment; what lasts of it is up to the rest. -/
theorem Ensures.read {k : σ → Program σ ε ω α} (hP : m.Stable P)
    (h : ∀ s₀, Ensures m (fun run s => P run s ∧ s = s₀) (k s₀) Q) : Ensures m P (.read k) Q := by
  intro run s run' s' b hpre hexec
  generalize hp : Program.read k = p at hexec
  induction hexec with
  | done | call => cases hp
  | read hexec =>
    obtain rfl := Program.read.inj hp
    exact h _ _ _ _ _ _ ⟨hpre, rfl⟩ hexec
  | other e hadm _ ih => exact ih (hP _ _ e hadm hpre) hp

/-- `R o` is what the event leaves behind when the machine answers `o`. -/
theorem Ensures.call {k : ω → Program σ ε ω α} {R : ω → List (Transition σ ε ω) → σ → Prop}
    (hP : m.Stable P) (hstep : ∀ run s, m.Admits s e → P run s →
      R (m.step s e).2 (run ++ [m.transition s e]) (m.step s e).1)
    (h : ∀ o, Ensures m (R o) (k o) Q) : Ensures m P (.call e k) Q := by
  intro run s run' s' b hpre hexec
  generalize hp : Program.call e k = p at hexec
  induction hexec with
  | done | read => cases hp
  | call hadm hexec =>
    obtain ⟨rfl, rfl⟩ := Program.call.inj hp
    exact h _ _ _ _ _ _ (hstep _ _ hadm hpre) hexec
  | other e' hadm _ ih => exact ih (hP _ _ e' hadm hpre) hp

theorem Ensures.bind {Q' : β → List (Transition σ ε ω) → σ → Prop} (hp : Ensures m P p Q)
    (hf : ∀ a, Ensures m (Q a) (f a) Q') : Ensures m P (p >>= f) Q' := by
  intro run s run' s' b hpre hexec
  obtain ⟨run₁, s₁, a, hfirst, hrest⟩ := Exec.split hexec
  exact hf a _ _ _ _ _ (hp _ _ _ _ _ hpre hfirst) hrest

theorem Ensures.get {f : σ → α} (hP : m.Stable P) (hQ : ∀ a, m.Stable (Q a))
    (h : ∀ run s, P run s → Q (f s) run s) : Ensures m P (get f) Q := by
  refine .read hP fun s₀ => .pure (hQ _) ?_
  rintro run s ⟨hpre, rfl⟩
  exact h run s hpre

theorem Ensures.send {Q : ω → List (Transition σ ε ω) → σ → Prop} (hP : m.Stable P)
    (hQ : ∀ o, m.Stable (Q o)) (h : ∀ run s, m.Admits s e → P run s →
      Q (m.step s e).2 (run ++ [m.transition s e]) (m.step s e).1) : Ensures m P (send e) Q :=
  .call hP h fun o => .pure (hQ o) fun _ _ hpre => hpre

/-- A stable assertion outlives every program: its events are admitted too. -/
theorem Ensures.frame (hP : m.Stable P) : Ensures m P p fun _ => P := by
  intro run s run' s' a hpre hexec
  induction hexec with
  | done => exact hpre
  | read _ ih => exact ih hpre
  | call hadm _ ih => exact ih (hP _ _ _ hadm hpre)
  | other e hadm _ ih => exact ih (hP _ _ e hadm hpre)

/-- What a program ensures holds beside a stable assertion. -/
theorem Ensures.and (h : Ensures m P p Q) (h' : Ensures m P p Q') :
    Ensures m P p fun a run s => Q a run s ∧ Q' a run s :=
  fun run s run' s' a hpre hexec => ⟨h run s run' s' a hpre hexec, h' run s run' s' a hpre hexec⟩

/-! ### Executions without other callers -/

/-- The transitions, the state and the result of the program when it runs alone. -/
def alone (m : Machine σ ε ω) : Program σ ε ω α → σ → List (Transition σ ε ω) × σ × α
  | done a, s => ([], s, a)
  | read k, s => (k s).alone m s
  | call e k, s =>
    let rest := (k (m.step s e).2).alone m (m.step s e).1
    (m.transition s e :: rest.1, rest.2)

/-- The machine admits the events of the program when it runs alone. -/
def AdmitsAlone (m : Machine σ ε ω) : Program σ ε ω α → σ → Prop
  | done _, _ => True
  | read k, s => (k s).AdmitsAlone m s
  | call e k, s => m.Admits s e ∧ (k (m.step s e).2).AdmitsAlone m (m.step s e).1

instance decidableAdmitsAlone [∀ s e, Decidable (m.Admits s e)] :
    ∀ (p : Program σ ε ω α) s, Decidable (p.AdmitsAlone m s)
  | done _, _ => .isTrue trivial
  | read k, s => decidableAdmitsAlone (k s) s
  | call e k, s =>
    have := decidableAdmitsAlone (k (m.step s e).2) (m.step s e).1
    inferInstanceAs (Decidable (m.Admits s e ∧
      (k (m.step s e).2).AdmitsAlone m (m.step s e).1))

theorem exec_alone (hadm : p.AdmitsAlone m s) :
    Exec m p run s (run ++ (p.alone m s).1) (p.alone m s).2.1 (p.alone m s).2.2 := by
  induction p generalizing run s with
  | done =>
    simp only [alone, List.append_nil]
    exact .done
  | read k ih => exact .read (ih s hadm)
  | call e k ih =>
    have hrest : Exec m (k (m.step s e).2) (run ++ [m.transition s e]) _ _ _ _ :=
      ih (m.step s e).2 hadm.2
    rw [List.append_assoc] at hrest
    exact .call hadm.1 hrest

end Program

end Execution
