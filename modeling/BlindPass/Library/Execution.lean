import Mathlib

/-!
# Machines and their runs

A machine takes one event at a time and answers with an output. Its environment
admits only some events in a given state, and a run is any sequence of admitted
steps from a start state. A run keeps the transitions it made, so a property may
speak about the past: which call was answered how, and in which state.
-/

namespace Execution

/-- One step of a run: the state it started in, the event, the machine's answer and
the state it ended in. -/
structure Transition (σ ε ω : Type*) where
  before : σ
  event : ε
  output : ω
  after : σ

/-- A machine with the events its environment admits in each state. -/
structure Machine (σ ε ω : Type*) where
  /-- The states a run may start in. -/
  Start : σ → Prop
  /-- The events the environment may offer. -/
  Admits : σ → ε → Prop
  /-- The next state and the answer. -/
  step : σ → ε → σ × ω

/-- A mark that no element has after an earlier one is had by at most one element. -/
theorem countP_le_one {α : Type*} {p : α → Bool} {l : List α}
    (honce : ∀ before a after, l = before ++ a :: after → p a = true →
      ∀ u ∈ before, p u = false) : l.countP p ≤ 1 := by
  induction l using List.reverseRecOn with
  | nil => simp
  | append_singleton l a ih =>
    have hprior := ih fun before a' after hl => honce before a' (after ++ [a]) (by simp [hl])
    rw [List.countP_append, List.countP_singleton]
    by_cases hp : p a = true
    · have hzero : l.countP p = 0 := by
        rw [List.countP_eq_zero]
        intro u hu
        simp [honce l a [] rfl hp u hu]
      simp [hp, hzero]
    · simpa [hp] using hprior

/-- A step that lowers a rank as long as there is one uses it up when it is repeated. -/
theorem exists_iterate_rank_eq_zero {σ : Type*} {f : σ → σ} {P : σ → Prop} {rank : σ → ℕ}
    (hkeep : ∀ s, P s → P (f s)) (hlower : ∀ s, P s → 0 < rank s → rank (f s) < rank s)
    {s : σ} (hs : P s) : ∃ n, P (f^[n] s) ∧ rank (f^[n] s) = 0 := by
  induction hrank : rank s using Nat.strongRecOn generalizing s with
  | ind r ih =>
    rcases Nat.eq_zero_or_pos (rank s) with hzero | hpos
    · exact ⟨0, hs, hzero⟩
    · obtain ⟨n, hn⟩ := ih (rank (f s)) (hrank ▸ hlower s hs hpos) (hkeep s hs) rfl
      exact ⟨n + 1, hn⟩

namespace Machine

variable {σ ε ω : Type*} {m : Machine σ ε ω} {s : σ} {e : ε}
  {run : List (Transition σ ε ω)}

/-- The transition the machine makes on `e` in `s`. -/
def transition (m : Machine σ ε ω) (s : σ) (e : ε) : Transition σ ε ω :=
  ⟨s, e, (m.step s e).2, (m.step s e).1⟩

@[simp] theorem transition_before : (m.transition s e).before = s := rfl

@[simp] theorem transition_event : (m.transition s e).event = e := rfl

@[simp] theorem transition_output : (m.transition s e).output = (m.step s e).2 := rfl

@[simp] theorem transition_after : (m.transition s e).after = (m.step s e).1 := rfl

/-- `m.Run run s`: the transitions `run`, oldest first, lead from a start state to `s`. -/
inductive Run (m : Machine σ ε ω) : List (Transition σ ε ω) → σ → Prop
  | start {s : σ} : m.Start s → Run m [] s
  | step {run : List (Transition σ ε ω)} {s : σ} {e : ε} :
      Run m run s → m.Admits s e → Run m (run ++ [m.transition s e]) (m.step s e).1

variable {P : σ → Prop} {after before : List (Transition σ ε ω)} {t : Transition σ ε ω}

theorem Run.invariant (hstart : ∀ s, m.Start s → P s)
    (hstep : ∀ s e, P s → m.Admits s e → P (m.step s e).1) (h : m.Run run s) : P s := by
  induction h with
  | start hs => exact hstart _ hs
  | step _ hadm ih => exact hstep _ _ ih hadm

/-- What the steps of one kind keep holds at the end of a run of such steps. -/
theorem Run.invariant_of {Q : Transition σ ε ω → Prop} (hstart : ∀ s, m.Start s → P s)
    (hstep : ∀ s e, P s → m.Admits s e → Q (m.transition s e) → P (m.step s e).1) (h : m.Run run s)
    (hrun : ∀ t ∈ run, Q t) : P s := by
  induction h with
  | start hs => exact hstart _ hs
  | step _ hadm ih =>
    have hprior := ih fun t ht => hrun t (List.mem_append_left _ ht)
    exact hstep _ _ hprior hadm (hrun _ (List.mem_append_right _ (.head _)))

/-- Induction on the steps after a transition of a run. -/
theorem Run.induct_after {Q : List (Transition σ ε ω) → σ → Prop}
    (hfirst : ∀ s e, m.Run before s → m.Admits s e → t = m.transition s e → Q [] (m.step s e).1)
    (hstep : ∀ after s e, m.Run (before ++ t :: after) s → m.Admits s e → Q after s →
      Q (after ++ [m.transition s e]) (m.step s e).1)
    (h : m.Run (before ++ t :: after) s) : Q after s := by
  generalize hrun : before ++ t :: after = run at h
  induction h generalizing after with
  | start => simp at hrun
  | @step run s e hr hadm ih =>
    rcases List.eq_nil_or_concat' after with rfl | ⟨rest, u, rfl⟩
    · obtain ⟨rfl, ht⟩ := List.append_inj' hrun rfl
      exact hfirst s e hr hadm (by simpa using ht)
    have hrun' : (before ++ t :: rest) ++ [u] = run ++ [m.transition s e] := by
      simpa [List.append_assoc] using hrun
    obtain ⟨hprior, hu⟩ := List.append_inj' hrun' rfl
    obtain rfl : u = m.transition s e := by simpa using hu
    exact hstep rest s e (hprior ▸ hr) hadm (ih hprior)

/-- Every transition of a run was an admitted step from a state the earlier
transitions reach. -/
theorem Run.split (h : m.Run (before ++ t :: after) s) :
    m.Run before t.before ∧ m.Admits t.before t.event ∧ t = m.transition t.before t.event := by
  refine h.induct_after (Q := fun _ _ => _) ?_ fun _ _ _ _ _ ih => ih
  rintro s e hr hadm rfl
  exact ⟨hr, hadm, rfl⟩

/-- What holds of every admitted step from a reached state holds of every transition
of a run. -/
theorem Run.forall_mem {Q : Transition σ ε ω → Prop}
    (hstep : ∀ run s e, m.Run run s → m.Admits s e → Q (m.transition s e))
    (h : m.Run run s) : ∀ t ∈ run, Q t := by
  intro t ht
  obtain ⟨before, after, rfl⟩ := List.append_of_mem ht
  obtain ⟨hr, hadm, heq⟩ := h.split
  rw [heq]
  exact hstep _ _ _ hr hadm

/-- A preorder that holds across every step holds between the end of a transition and the
end of its run. -/
theorem Run.relates {R : σ → σ → Prop} (hrefl : ∀ s, R s s)
    (htrans : ∀ s t u, R s t → R t u → R s u)
    (hstep : ∀ run s e, m.Run run s → m.Admits s e → R s (m.step s e).1)
    (h : m.Run (before ++ t :: after) s) : R t.after s := by
  refine h.induct_after (Q := fun _ s => R t.after s) ?_ ?_
  · rintro s e - - rfl
    exact hrefl _
  · intro after s e hr hadm ih
    exact htrans _ _ _ ih (hstep _ s e hr hadm)

/-- What a step keeps unless it is marked holds from any point of a run on, until a marked step. -/
theorem Run.holds_until {C : Transition σ ε ω → Prop}
    (hstep : ∀ run s e, m.Run run s → m.Admits s e → P s → P (m.step s e).1 ∨ C (m.transition s e))
    (h : m.Run (before ++ t :: after) s) (ht : P t.before) : P s ∨ ∃ u ∈ t :: after, C u := by
  refine h.induct_after (Q := fun after s => P s ∨ ∃ u ∈ t :: after, C u) ?_ ?_
  · rintro s e hr hadm rfl
    exact (hstep _ s e hr hadm ht).imp id fun hc => ⟨_, .head _, hc⟩
  · rintro after s e hr hadm (hs | ⟨v, hv, hc⟩)
    · exact (hstep _ s e hr hadm hs).imp id fun hc => ⟨_, by simp, hc⟩
    · exact .inr ⟨v, List.mem_append_left [m.transition s e] hv, hc⟩

/-! ### Playing a list of events -/

/-- The environment admits the events one after the other. -/
def AdmitsAll (m : Machine σ ε ω) : σ → List ε → Prop
  | _, [] => True
  | s, e :: rest => m.Admits s e ∧ m.AdmitsAll (m.step s e).1 rest

instance decidableAdmitsAll [∀ s e, Decidable (m.Admits s e)] :
    ∀ s events, Decidable (m.AdmitsAll s events)
  | _, [] => .isTrue trivial
  | s, e :: rest =>
    have := decidableAdmitsAll (m.step s e).1 rest
    inferInstanceAs (Decidable (m.Admits s e ∧ m.AdmitsAll (m.step s e).1 rest))

/-- Events of a kind that is admitted in every state. -/
theorem admitsAll_of {events : List ε} (h : ∀ e ∈ events, ∀ s, m.Admits s e) :
    m.AdmitsAll s events := by
  induction events generalizing s with
  | nil => trivial
  | cons e rest ih =>
    obtain ⟨he, hrest⟩ := List.forall_mem_cons.mp h
    exact ⟨he s, ih hrest⟩

/-- The transitions made on a list of events, and the state they end in. -/
def play (m : Machine σ ε ω) : σ → List ε → List (Transition σ ε ω) × σ
  | s, [] => ([], s)
  | s, e :: rest =>
    let played := m.play (m.step s e).1 rest
    (m.transition s e :: played.1, played.2)

theorem Run.append_play (h : m.Run run s) {events : List ε} (hadm : m.AdmitsAll s events) :
    m.Run (run ++ (m.play s events).1) (m.play s events).2 := by
  induction events generalizing run s with
  | nil => simpa [play] using h
  | cons e rest ih =>
    have hrest := ih (h.step hadm.1) hadm.2
    simpa [play, List.append_assoc] using hrest

theorem play_append (s : σ) (events more : List ε) :
    (m.play s (events ++ more)).2 = (m.play (m.play s events).2 more).2 := by
  induction events generalizing s with
  | nil => rfl
  | cons e rest ih => exact ih _

/-- Admitted events from a start state make a run. -/
theorem run_play (hstart : m.Start s) {events : List ε} (hadm : m.AdmitsAll s events) :
    m.Run (m.play s events).1 (m.play s events).2 := by
  simpa using (Run.start hstart).append_play hadm

end Machine

end Execution
