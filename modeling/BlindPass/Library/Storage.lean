import Mathlib

/-!
# Files that survive a power loss, or do not

A program sees what it wrote. A power loss brings back any value that was current
since the last synchronisation, and that holds separately for a file's contents
(synchronised through the file) and for the directory entry that names the file
(synchronised through the directory).

A `Slot` is one path in a directory together with everything a power loss may still
bring back there. Two protocols write it: appending one line to the file at the
path, and replacing the file by renaming a complete one over it; a reader drops an
unterminated tail it finds. Each takes the
outcome of every system call it makes, so a property of the protocol holds whatever
calls fail.
-/

namespace Storage

/-- A stored value: what readers see, and the older values a power loss may restore. -/
structure Durable (α : Type*) where
  visible : α
  stale : List α
  deriving DecidableEq

namespace Durable

variable {α : Type*}

/-- A value with nothing older behind it. -/
def settled (a : α) : Durable α := ⟨a, []⟩

/-- A write that has not been synchronised. -/
def write (d : Durable α) (a : α) : Durable α := ⟨a, d.visible :: d.stale⟩

/-- A synchronisation: the visible value is the only one left. -/
def sync (d : Durable α) : Durable α := ⟨d.visible, []⟩

/-- Every value that a reader sees now or a power loss may restore. -/
def values (d : Durable α) : List α := d.visible :: d.stale

end Durable

/-- A text file: complete lines, `none` for a line no reader can parse, and the bytes of
an unterminated last line. -/
structure File (ℓ : Type*) where
  lines : List (Option ℓ)
  torn : ℕ
  deriving DecidableEq

namespace File

variable {ℓ : Type*}

/-- A file just created. -/
def empty : File ℓ := ⟨[], 0⟩

/-- The file holding exactly `lines`. -/
def ofLines (lines : List ℓ) : File ℓ := ⟨lines.map some, 0⟩

/-- Append a whole line. After an unterminated tail the two run together. -/
def appendLine (f : File ℓ) (line : ℓ) : File ℓ :=
  ⟨f.lines ++ [if f.torn = 0 then some line else none], 0⟩

/-- Append the first `k` bytes of a line. -/
def appendTorn (f : File ℓ) (k : ℕ) : File ℓ := ⟨f.lines, f.torn + k⟩

/-- Drop the unterminated tail. -/
def cut (f : File ℓ) : File ℓ := ⟨f.lines, 0⟩

/-- The file's length in bytes, for lines of the given sizes. -/
def length (size : ℓ → ℕ) (f : File ℓ) : ℕ :=
  (f.lines.map fun line => line.elim 0 size).sum + f.torn

end File

/-- A path in a directory. The entry names a file or none; `stamp` changes with every
visible change of the file, as its inode, length and times do. -/
structure Slot (ℓ : Type*) where
  entry : Durable (Option (Durable (File ℓ)))
  stamp : ℕ
  deriving DecidableEq

namespace Slot

variable {ℓ : Type*}

/-- A path that names nothing. -/
def absent : Slot ℓ := ⟨.settled none, 0⟩

variable (s : Slot ℓ)

/-- The file a reader finds. -/
def file? : Option (File ℓ) := s.entry.visible.map Durable.visible

/-- Open for appending: an absent file is created, which changes the directory. -/
def opened : Slot ℓ :=
  match s.entry.visible with
  | none => ⟨s.entry.write (some (.settled .empty)), s.stamp + 1⟩
  | some _ => s

/-- Change the contents of the visible file, if there is one. -/
def put (f : File ℓ) : Slot ℓ :=
  ⟨⟨s.entry.visible.map (·.write f), s.entry.stale⟩, s.stamp + 1⟩

/-- Synchronise the visible file. -/
def syncFile : Slot ℓ :=
  ⟨⟨s.entry.visible.map Durable.sync, s.entry.stale⟩, s.stamp⟩

/-- Synchronise the directory. -/
def syncDirectory : Slot ℓ := ⟨s.entry.sync, s.stamp⟩

/-- Rename a complete, synchronised file over the path. -/
def renamed (f : File ℓ) : Slot ℓ :=
  ⟨s.entry.write (some (.settled f)), s.stamp + 1⟩

/-- The files that may be found at the path after a power loss: any contents, current or
older, of the file named by any entry, current or older. An append that was cut short may
leave an unterminated tail. -/
def Survives : Option (File ℓ) → Prop
  | none => none ∈ s.entry.values
  | some f => ∃ e ∈ s.entry.values, ∃ d ∈ e, ∃ g ∈ d.values,
      f = g ∨ (d.stale ≠ [] ∧ f.lines = g.lines)

/-- The same, when the entry itself is not lost. -/
def SurvivesNamed : Option (File ℓ) → Prop
  | none => s.entry.visible = none
  | some f => ∃ d ∈ s.entry.visible, ∃ g ∈ d.values,
      f = g ∨ (d.stale ≠ [] ∧ f.lines = g.lines)

instance [DecidableEq ℓ] (s : Slot ℓ) : ∀ found, Decidable (s.Survives found)
  | none => inferInstanceAs (Decidable (none ∈ s.entry.values))
  | some f => inferInstanceAs (Decidable (∃ e ∈ s.entry.values, ∃ d ∈ e, ∃ g ∈ d.values,
      f = g ∨ (d.stale ≠ [] ∧ f.lines = g.lines)))

/-- The slot after a power loss that leaves `found` at the path. -/
def restored (found : Option (File ℓ)) : Slot ℓ :=
  ⟨.settled (found.map .settled), s.stamp + 1⟩

/-! ### The protocols -/

/-- The outcome of every system call of an append: `true` where it succeeds. `write` is
`none` when every byte is written, and the number of bytes written before the error
otherwise, less than the line has. `cut` and `cutSync` are the attempt to take a failed write back. -/
structure AppendIo where
  inspect : Bool
  create : Bool
  metadata : Bool
  write : Option ℕ
  sync : Bool
  cut : Bool
  cutSync : Bool
  directory : Bool
  deriving DecidableEq

/-- The call an append stopped at. -/
inductive AppendError
  | inspect
  | create
  | metadata
  | full
  | flush
  | directory
  deriving DecidableEq

/-- Every call succeeds. -/
def AppendIo.clean : AppendIo := ⟨true, true, true, none, true, true, true, true⟩

/-- Take a failed write back to `f` as far as the calls succeed. -/
def undo (f : File ℓ) (io : AppendIo) : Slot ℓ :=
  if io.cut then
    if io.cutSync then (s.put f).syncFile else s.put f
  else s

/-- Append one line and synchronise the file, and the directory too when the append
created the file. The file's length may not pass `limit`. -/
def append (size : ℓ → ℕ) (limit : ℕ) (s : Slot ℓ) (line : ℓ) (io : AppendIo) :
    Slot ℓ × Except AppendError Unit :=
  if !io.inspect then (s, .error .inspect)
  else if !io.create then (s, .error .create)
  else
    let existed := s.entry.visible.isSome
    let o := s.opened
    let f := s.file?.getD .empty
    if !io.metadata then (o, .error .metadata)
    else if limit < f.length size + size line then (o, .error .full)
    else
      match io.write with
      | some k => ((o.put (f.appendTorn (min k (size line - 1)))).undo f io, .error .flush)
      | none =>
        if !io.sync then ((o.put (f.appendLine line)).undo f io, .error .flush)
        else
          let done := (o.put (f.appendLine line)).syncFile
          if existed then (done, .ok ())
          else if io.directory then (done.syncDirectory, .ok ())
          else (done, .error .directory)

/-- The outcome of every system call of a replacement. -/
structure ReplaceIo where
  create : Bool
  write : Bool
  sync : Bool
  rename : Bool
  directory : Bool
  deriving DecidableEq

/-- The call a replacement stopped at. -/
inductive ReplaceError
  | create
  | write
  | commit
  | directory
  deriving DecidableEq

/-- Every call succeeds. -/
def ReplaceIo.clean : ReplaceIo := ⟨true, true, true, true, true⟩

/-- Write a complete file beside the path, synchronise it, rename it over the path and
synchronise the directory. -/
def replace (lines : List ℓ) (io : ReplaceIo) : Slot ℓ × Except ReplaceError Unit :=
  if !io.create then (s, .error .create)
  else if !io.write then (s, .error .write)
  else if !(io.sync && io.rename) then (s, .error .commit)
  else if io.directory then ((s.renamed (.ofLines lines)).syncDirectory, .ok ())
  else (s.renamed (.ofLines lines), .error .directory)

/-- Drop an unterminated tail and synchronise the file; `false` when a call fails. -/
def cutTorn (cut cutSync : Bool) : Slot ℓ × Bool :=
  match s.file? with
  | none => (s, true)
  | some f =>
    if f.torn = 0 then (s, true)
    else if !cut then (s, false)
    else if !cutSync then (s.put f.cut, false)
    else ((s.put f.cut).syncFile, true)

/-- The outcome of every system call of a read. -/
structure ReadIo where
  «open» : Bool
  metadata : Bool
  read : Bool
  cut : Bool
  cutSync : Bool
  deriving DecidableEq

/-- Where a read stopped. -/
inductive ReadError
  | «open»
  | metadata
  | size
  | read
  | refused
  | cut
  deriving DecidableEq

/-- Every call succeeds. -/
def ReadIo.clean : ReadIo := ⟨true, true, true, true, true⟩

/-- Read the lines of the file, if there is one, and drop an unterminated tail. Contents
longer than `limit` or not accepted are left as they are. -/
def read (size : ℓ → ℕ) (limit : ℕ) (accepts : List (Option ℓ) → Bool) (s : Slot ℓ) (io : ReadIo) :
    Slot ℓ × Except ReadError (Option (List (Option ℓ))) :=
  if !io.open then (s, .error .open)
  else
    match s.file? with
    | none => (s, .ok none)
    | some f =>
      if !io.metadata then (s, .error .metadata)
      else if limit < f.length size then (s, .error .size)
      else if !io.read then (s, .error .read)
      else if !accepts f.lines then (s, .error .refused)
      else
        match s.cutTorn io.cut io.cutSync with
        | (s, false) => (s, .error .cut)
        | (s, true) => (s, .ok (some f.lines))

/-! ### What survives -/

/-- Every file that a power loss may leave is there and has lines satisfying `P`. -/
def Kept (P : List (Option ℓ) → Prop) (s : Slot ℓ) : Prop :=
  ∀ e ∈ s.entry.values, ∃ d, e = some d ∧ ∀ g ∈ d.values, P g.lines

/-- The same, when the entry itself is not lost. -/
def KeptNamed (P : List (Option ℓ) → Prop) (s : Slot ℓ) : Prop :=
  ∃ d, s.entry.visible = some d ∧ ∀ g ∈ d.values, P g.lines

variable {P : List (Option ℓ) → Prop} {s : Slot ℓ}

theorem Kept.named (h : s.Kept P) : s.KeptNamed P := by
  obtain ⟨d, hd, hP⟩ := h s.entry.visible (by simp [Durable.values])
  exact ⟨d, hd, hP⟩

/-- With no older entry to come back, what the visible entry keeps is kept. -/
theorem KeptNamed.kept (h : s.KeptNamed P) (hs : s.entry.stale = []) : s.Kept P := by
  intro e he
  rw [Durable.values, hs, List.mem_singleton] at he
  subst he
  exact h

theorem KeptNamed.file? (h : s.KeptNamed P) : ∃ f, s.file? = some f ∧ P f.lines := by
  obtain ⟨d, hd, hP⟩ := h
  exact ⟨d.visible, by simp [Slot.file?, hd], hP _ (by simp [Durable.values])⟩

variable {found : Option (File ℓ)} {line : ℓ} {io : AppendIo} {accepts : List (Option ℓ) → Bool}
  {lines : Option (List (Option ℓ))}

theorem Kept.survives (h : s.Kept P) (hf : s.Survives found) : ∃ f, found = some f ∧ P f.lines := by
  cases found with
  | none =>
    obtain ⟨d, hd, -⟩ := h none hf
    cases hd
  | some f =>
    obtain ⟨e, he, d, hd, g, hg, hfg⟩ := hf
    obtain ⟨d', hd', hP⟩ := h e he
    obtain rfl : d = d' := Option.mem_unique hd hd'
    refine ⟨f, rfl, ?_⟩
    rcases hfg with rfl | ⟨-, hlines⟩
    · exact hP f hg
    · exact hlines ▸ hP g hg

theorem KeptNamed.survives (h : s.KeptNamed P) (hf : s.SurvivesNamed found) :
    ∃ f, found = some f ∧ P f.lines := by
  obtain ⟨d, hd, hP⟩ := h
  cases found with
  | none => rw [SurvivesNamed, hd] at hf; cases hf
  | some f =>
    obtain ⟨d', hd', g, hg, hfg⟩ := hf
    obtain rfl : d = d' := Option.mem_unique hd hd'
    refine ⟨f, rfl, ?_⟩
    rcases hfg with rfl | ⟨-, hlines⟩
    · exact hP f hg
    · exact hlines ▸ hP g hg

theorem kept_restored {f : File ℓ} (hfound : found = some f) (hP : P f.lines) :
    (s.restored found).Kept P := by
  subst hfound
  intro e he
  obtain rfl : e = some (.settled f) := by
    simpa [restored, Durable.settled, Durable.values] using he
  refine ⟨_, rfl, ?_⟩
  intro g hg
  obtain rfl : g = f := by simpa [Durable.settled, Durable.values] using hg
  exact hP

/-- Going from `s` to `t` loses nothing that satisfies `P`, whether or not the entry
itself can be lost. -/
structure Preserves (P : List (Option ℓ) → Prop) (s t : Slot ℓ) : Prop where
  kept : s.Kept P → t.Kept P
  named : s.KeptNamed P → t.KeptNamed P

namespace Preserves

variable {t u : Slot ℓ} {f : File ℓ}

theorem refl (P : List (Option ℓ) → Prop) (s : Slot ℓ) : Preserves P s s := ⟨id, id⟩

theorem trans (h : Preserves P s t) (h' : Preserves P t u) : Preserves P s u :=
  ⟨h'.kept ∘ h.kept, h'.named ∘ h.named⟩

/-- A change of the visible file that keeps `P` of its contents. -/
private theorem of_visible {s t : Slot ℓ} (hstale : t.entry.stale = s.entry.stale)
    (hvisible : ∀ d, s.entry.visible = some d → (∀ g ∈ d.values, P g.lines) →
      ∃ d', t.entry.visible = some d' ∧ ∀ g ∈ d'.values, P g.lines) : Preserves P s t where
  kept h e he := by
    rw [Durable.values, hstale] at he
    rcases List.mem_cons.mp he with rfl | he
    · obtain ⟨d, hd, hP⟩ := h.named
      exact hvisible d hd hP
    · exact h e (.tail _ he)
  named := fun ⟨d, hd, hP⟩ => hvisible d hd hP

theorem put (hf : s.KeptNamed P → P f.lines) : Preserves P s (s.put f) := by
  refine of_visible rfl fun d hd hP => ⟨d.write f, by simp [Slot.put, hd], ?_⟩
  intro g hg
  rcases List.mem_cons.mp hg with rfl | hg
  · exact hf ⟨d, hd, hP⟩
  · exact hP g hg

theorem syncFile : Preserves P s s.syncFile := by
  refine of_visible rfl fun d hd hP => ⟨d.sync, by simp [Slot.syncFile, hd], ?_⟩
  intro g hg
  obtain rfl : g = d.visible := by simpa [Durable.sync, Durable.values] using hg
  exact hP _ (by simp [Durable.values])

theorem syncDirectory : Preserves P s s.syncDirectory where
  kept h := KeptNamed.kept h.named rfl
  named := id

theorem renamed (hf : P f.lines) : Preserves P s (s.renamed f) := by
  have hnew : ∀ g ∈ (Durable.settled f).values, P g.lines := by
    intro g hg
    obtain rfl : g = f := by simpa [Durable.settled, Durable.values] using hg
    exact hf
  refine ⟨fun h e he => ?_, fun _ => ⟨_, rfl, hnew⟩⟩
  rcases List.mem_cons.mp he with rfl | he
  · exact ⟨_, rfl, hnew⟩
  · exact h e he

theorem opened : Preserves P s s.opened := by
  cases hv : s.entry.visible with
  | none =>
    -- nothing is kept at a path that names nothing
    have hno : ¬ s.KeptNamed P := by
      rintro ⟨d, hd, -⟩
      rw [hv] at hd
      cases hd
    exact ⟨fun h => absurd h.named hno, fun h => absurd h hno⟩
  | some => simpa [Slot.opened, hv] using refl P s

theorem undo (hf : s.KeptNamed P → P f.lines) (io : AppendIo) : Preserves P s (s.undo f io) := by
  unfold Slot.undo
  split
  · split
    · exact (put hf).trans syncFile
    · exact put hf
  · exact refl P s

end Preserves

theorem file?_opened (s : Slot ℓ) : s.opened.file? = some (s.file?.getD .empty) := by
  cases hv : s.entry.visible <;>
    simp [opened, Slot.file?, hv, Durable.write, Durable.settled]

/-- What `P` says of the contents, it still says of them with one more line. -/
def AppendStable (P : List (Option ℓ) → Prop) : Prop := ∀ l x, P l → P (l ++ [x])

/-- The slot once a line has been written and flushed to the file at its path. -/
def flushed (s : Slot ℓ) (line : ℓ) : Slot ℓ :=
  (s.opened.put ((s.file?.getD .empty).appendLine line)).syncFile

/-- All that an append does: it stops before writing, it takes a failed write back as far
as it can, or it flushes the line. -/
theorem append_cases (size : ℓ → ℕ) (limit : ℕ) (s : Slot ℓ) (line : ℓ) (io : AppendIo) :
    (∃ t e, (t = s ∨ t = s.opened) ∧ e ≠ .directory ∧ s.append size limit line io = (t, .error e)) ∨
    (∃ written, (written.lines = (s.file?.getD .empty).lines ∨
        written = (s.file?.getD .empty).appendLine line) ∧ s.append size limit line io =
        ((s.opened.put written).undo (s.file?.getD .empty) io, .error .flush)) ∨
    (∃ r, (r = .ok () ∧ s.entry.visible.isSome = true ∨ r = .error .directory) ∧
      s.append size limit line io = (s.flushed line, r)) ∨
    s.append size limit line io = ((s.flushed line).syncDirectory, .ok ()) := by
  unfold append
  split
  · exact .inl ⟨s, .inspect, .inl rfl, by decide, rfl⟩
  split
  · exact .inl ⟨s, .create, .inl rfl, by decide, rfl⟩
  dsimp only
  split
  · exact .inl ⟨s.opened, .metadata, .inr rfl, by decide, rfl⟩
  split
  · exact .inl ⟨s.opened, .full, .inr rfl, by decide, rfl⟩
  split
  · rename_i k _
    exact .inr (.inl ⟨(s.file?.getD .empty).appendTorn (min k (size line - 1)), .inl rfl, rfl⟩)
  split
  · exact .inr (.inl ⟨_, .inr rfl, rfl⟩)
  split
  · rename_i hexisted
    exact .inr (.inr (.inl ⟨.ok (), .inl ⟨rfl, hexisted⟩, rfl⟩))
  split
  · exact .inr (.inr (.inr rfl))
  · exact .inr (.inr (.inl ⟨.error .directory, .inr rfl, rfl⟩))

theorem append_preserves (hP : AppendStable P) (size : ℓ → ℕ) (limit : ℕ) (s : Slot ℓ) (line : ℓ)
    (io : AppendIo) : Preserves P s (s.append size limit line io).1 := by
  have hfile : s.opened.KeptNamed P → P (s.file?.getD .empty).lines := by
    intro h
    obtain ⟨f, hf, hPf⟩ := h.file?
    rw [file?_opened, Option.some.injEq] at hf
    exact hf ▸ hPf
  have hflushed : Preserves P s (s.flushed line) :=
    (Preserves.opened.trans (Preserves.put fun h => hP _ _ (hfile h))).trans Preserves.syncFile
  obtain ⟨t, e, ht, -, h⟩ | ⟨written, hw, h⟩ | ⟨r, -, h⟩ | h := append_cases size limit s line io <;>
    rw [h]
  · rcases ht with rfl | rfl
    · exact .refl P t
    · exact Preserves.opened
  · have hwritten : s.opened.KeptNamed P → P written.lines := by
      intro hk
      rcases hw with hw | rfl
      · exact hw ▸ hfile hk
      · exact hP _ _ (hfile hk)
    refine Preserves.opened.trans ⟨fun hk => ?_, fun hk => ?_⟩
    · exact (Preserves.undo (fun _ => hfile hk.named) io).kept ((Preserves.put hwritten).kept hk)
    · exact (Preserves.undo (fun _ => hfile hk) io).named ((Preserves.put hwritten).named hk)
  · exact hflushed
  · exact hflushed.trans Preserves.syncDirectory

theorem keptNamed_flushed (hP : ∀ l, P (l ++ [some line]) ∧ P (l ++ [none])) :
    (s.flushed line).KeptNamed P := by
  have hlines : P ((s.file?.getD .empty).appendLine line).lines := by
    unfold File.appendLine
    split
    · exact (hP _).1
    · exact (hP _).2
  obtain ⟨d, hd⟩ : ∃ d, s.opened.entry.visible = some d := by
    have hopen := file?_opened s
    cases hv : s.opened.entry.visible with
    | none => simp [Slot.file?, hv] at hopen
    | some d => exact ⟨d, rfl⟩
  refine ⟨.settled ((s.file?.getD .empty).appendLine line), ?_, ?_⟩
  · simp [flushed, Slot.syncFile, Slot.put, hd, Durable.sync, Durable.write, Durable.settled]
  · intro g hg
    obtain rfl : g = _ := by simpa [Durable.settled, Durable.values] using hg
    exact hlines

/-- A flushed line is in every file the current entry may lead to after a power loss. -/
theorem keptNamed_append {size : ℓ → ℕ} {limit : ℕ} (h : (s.append size limit line io).2 = .ok () ∨
      (s.append size limit line io).2 = .error .directory)
    (hP : ∀ l, P (l ++ [some line]) ∧ P (l ++ [none])) :
    (s.append size limit line io).1.KeptNamed P := by
  obtain ⟨t, e, -, he, hs⟩ | ⟨written, -, hs⟩ | ⟨r, -, hs⟩ | hs :=
    append_cases size limit s line io
  · simp [hs, he] at h
  · simp [hs] at h
  · rw [hs]
    exact keptNamed_flushed hP
  · rw [hs]
    exact Preserves.syncDirectory.named (keptNamed_flushed hP)

theorem replace_preserves {lines : List ℓ} (hP : P (lines.map some)) (s : Slot ℓ)
    (io : ReplaceIo) : Preserves P s (s.replace lines io).1 := by
  have hnew : Preserves P s (s.renamed (.ofLines lines)) := Preserves.renamed hP
  unfold replace
  split_ifs
  · exact .refl P s
  · exact .refl P s
  · exact .refl P s
  · exact hnew.trans Preserves.syncDirectory
  · exact hnew

theorem cutTorn_preserves (P : List (Option ℓ) → Prop) (s : Slot ℓ) (cut cutSync : Bool) :
    Preserves P s (s.cutTorn cut cutSync).1 := by
  unfold cutTorn
  cases hf : s.file? with
  | none => exact .refl P s
  | some f =>
    have hput : Preserves P s (s.put f.cut) := by
      refine Preserves.put fun h => ?_
      obtain ⟨g, hg, hPg⟩ := h.file?
      obtain rfl : f = g := Option.mem_unique hf hg
      exact hPg
    dsimp only
    split_ifs
    · exact .refl P s
    · exact .refl P s
    · exact hput
    · exact hput.trans Preserves.syncFile

section Read

variable (size : ℓ → ℕ) (limit : ℕ) (accepts : List (Option ℓ) → Bool) (s : Slot ℓ) (io : ReadIo)

/-- Reading leaves the path alone or drops its tail. -/
theorem read_fst : (s.read size limit accepts io).1 = s ∨
      (s.read size limit accepts io).1 = (s.cutTorn io.cut io.cutSync).1 := by
  unfold read
  split
  · exact .inl rfl
  split
  · exact .inl rfl
  split_ifs
  · exact .inl rfl
  · exact .inl rfl
  · exact .inl rfl
  · exact .inl rfl
  split <;> rename_i heq <;> exact .inr (by rw [heq])

theorem read_preserves (P : List (Option ℓ) → Prop) :
    Preserves P s (s.read size limit accepts io).1 := by
  rcases read_fst size limit accepts s io with h | h <;> rw [h]
  · exact .refl P s
  · exact cutTorn_preserves P s io.cut io.cutSync

/-! ### The entry -/

theorem stale_cutTorn (s : Slot ℓ) (cut cutSync : Bool) :
    (s.cutTorn cut cutSync).1.entry.stale = s.entry.stale := by
  unfold cutTorn
  split
  · rfl
  split_ifs <;> rfl

theorem stale_read : (s.read size limit accepts io).1.entry.stale = s.entry.stale := by
  rcases read_fst size limit accepts s io with h | h <;> rw [h]
  exact stale_cutTorn s io.cut io.cutSync

end Read

/-- An append that succeeds leaves a settled entry settled: it synchronises the directory if it
creates the file. -/
theorem stale_append {size : ℓ → ℕ} {limit : ℕ} (h : (s.append size limit line io).2 = .ok ())
    (hstale : s.entry.stale = []) : (s.append size limit line io).1.entry.stale = [] := by
  obtain ⟨t, e, -, -, hs⟩ | ⟨written, -, hs⟩ | ⟨r, hr, hs⟩ | hs := append_cases size limit s line io
  · simp [hs] at h
  · simp [hs] at h
  · rw [hs] at h ⊢
    obtain ⟨-, hexisted⟩ | rfl := hr
    · obtain ⟨d, hd⟩ := Option.isSome_iff_exists.mp hexisted
      simpa [flushed, opened, hd, put, syncFile] using hstale
    · cases h
  · rw [hs]
    rfl

/-- A successful read finds no file, or it drops the tail of the one it finds. -/
theorem read_eq_ok_cases {size : ℓ → ℕ} {limit : ℕ} {io : ReadIo} {t : Slot ℓ}
    (h : s.read size limit accepts io = (t, .ok lines)) :
    (t.file? = none ∧ s.file? = none ∧ lines = none) ∨ ∃ f, s.file? = some f ∧
      s.cutTorn io.cut io.cutSync = (t, true) ∧ lines = some f.lines := by
  unfold read at h
  split at h
  · cases h
  split at h
  · rename_i hf
    cases h
    exact .inl ⟨hf, hf, rfl⟩
  rename_i f hf
  split_ifs at h
  · cases h
  · cases h
  · cases h
  · cases h
  split at h <;> cases h
  rename_i heq
  exact .inr ⟨f, hf, heq, rfl⟩

/-- A successful read returns the lines of the visible file. -/
theorem read_eq_ok {size : ℓ → ℕ} {limit : ℕ} {io : ReadIo} {t : Slot ℓ}
    (h : s.read size limit accepts io = (t, .ok lines)) : lines = s.file?.map File.lines := by
  obtain ⟨-, hf, rfl⟩ | ⟨f, hf, -, rfl⟩ := read_eq_ok_cases h <;> simp [hf]

/-! ### What a reader sees -/

/-- Nothing a reader sees of the path changed, or its stamp did. -/
def Follows (s t : Slot ℓ) : Prop := (t.file? = s.file? ∧ t.stamp = s.stamp) ∨ s.stamp < t.stamp

theorem Follows.refl (s : Slot ℓ) : Follows s s := .inl ⟨rfl, rfl⟩

theorem Follows.trans {t u : Slot ℓ} (h : Follows s t) (h' : Follows t u) : Follows s u := by
  rcases h with ⟨hfile, hstamp⟩ | hlt
  · rcases h' with ⟨hfile', hstamp'⟩ | hlt'
    · exact .inl ⟨hfile'.trans hfile, hstamp'.trans hstamp⟩
    · exact .inr (hstamp ▸ hlt')
  · rcases h' with ⟨-, hstamp'⟩ | hlt'
    · exact .inr (hstamp' ▸ hlt)
    · exact .inr (Nat.lt_trans hlt hlt')

theorem Follows.stamp_le {t : Slot ℓ} (h : Follows s t) : s.stamp ≤ t.stamp := by
  rcases h with ⟨-, hstamp⟩ | hlt
  · exact hstamp.ge
  · exact hlt.le

@[simp] theorem file?_put (s : Slot ℓ) (f : File ℓ) : (s.put f).file? = s.file?.map fun _ => f := by
  cases hv : s.entry.visible <;> simp [put, file?, hv, Durable.write]

@[simp] theorem file?_syncFile (s : Slot ℓ) : s.syncFile.file? = s.file? := by
  cases hv : s.entry.visible <;> simp [syncFile, file?, hv, Durable.sync]

@[simp] theorem file?_syncDirectory (s : Slot ℓ) : s.syncDirectory.file? = s.file? := rfl

@[simp] theorem file?_renamed (s : Slot ℓ) (f : File ℓ) : (s.renamed f).file? = some f := rfl

theorem follows_opened (s : Slot ℓ) : Follows s s.opened := by
  cases hv : s.entry.visible with
  | none => exact .inr (by simp [opened, hv])
  | some => simpa [opened, hv] using Follows.refl s

theorem follows_put (s : Slot ℓ) (f : File ℓ) : Follows s (s.put f) := .inr (Nat.lt_succ_self _)

theorem follows_syncFile (s : Slot ℓ) : Follows s s.syncFile := .inl ⟨file?_syncFile s, rfl⟩

theorem follows_undo (s : Slot ℓ) (f : File ℓ) (io : AppendIo) : Follows s (s.undo f io) := by
  unfold undo
  split
  · split
    · exact (follows_put s f).trans (follows_syncFile _)
    · exact follows_put s f
  · exact .refl s

theorem file?_undo (s : Slot ℓ) (f : File ℓ) (io : AppendIo) :
    (s.undo f io).file? = if io.cut then s.file?.map fun _ => f else s.file? := by
  unfold undo
  split_ifs <;> simp

theorem file?_flushed (s : Slot ℓ) (line : ℓ) :
    (s.flushed line).file? = some ((s.file?.getD .empty).appendLine line) := by
  simp [flushed, file?_opened]

theorem follows_flushed (s : Slot ℓ) (line : ℓ) : s.stamp < (s.flushed line).stamp :=
  Nat.lt_succ_of_le (follows_opened s).stamp_le

section Append

variable (size : ℓ → ℕ) (limit : ℕ) (s : Slot ℓ) (line : ℓ) (io : AppendIo)

theorem follows_append : Follows s (s.append size limit line io).1 := by
  obtain ⟨t, e, ht, -, h⟩ | ⟨written, -, h⟩ | ⟨r, -, h⟩ | h := append_cases size limit s line io <;>
    rw [h]
  · rcases ht with rfl | rfl
    · exact .refl t
    · exact follows_opened s
  · exact ((follows_opened s).trans (follows_put _ _)).trans (follows_undo _ _ _)
  all_goals exact .inr (follows_flushed s line)

/-- The append fails and its line stays: it cannot be taken back after a failed flush, or the
directory of the file it created is not synchronised. -/
def leavesLine : Bool :=
  io.inspect && io.create && io.metadata &&
    decide ((s.file?.getD .empty).length size + size line ≤ limit) && io.write.isNone &&
    if io.sync then !s.entry.visible.isSome && !io.directory else !io.cut

/-- What a reader sees after an append. -/
theorem lines_append :
    ((s.append size limit line io).1.file?.getD .empty).lines =
      if (s.append size limit line io).2 = .ok () ∨ s.leavesLine size limit line io = true then
        ((s.file?.getD .empty).appendLine line).lines
      else (s.file?.getD .empty).lines := by
  have hdone := file?_flushed s line
  rw [flushed] at hdone
  unfold append leavesLine
  cases hinspect : io.inspect with
  | false => simp
  | true =>
    cases hcreate : io.create with
    | false => simp
    | true =>
      cases hmetadata : io.metadata with
      | false => simp [file?_opened]
      | true =>
        by_cases hfull : limit < (s.file?.getD .empty).length size + size line
        · simp [hfull, not_le.mpr hfull, file?_opened]
        cases hwrite : io.write with
        | some => cases hcut : io.cut <;> simp [hfull, file?_undo, hcut, file?_opened, File.appendTorn]
        | none =>
          cases hsync : io.sync with
          | false =>
            cases hcut : io.cut <;>
              simp [hfull, not_lt.mp hfull, file?_undo, hcut, file?_opened]
          | true =>
            cases hexisted : s.entry.visible.isSome with
            | true => simp [hfull, hdone]
            | false =>
              cases hdirectory : io.directory <;>
                simp [hfull, not_lt.mp hfull, hdone]

/-- The append leaves its line in the file, whether it succeeds or not. -/
def keepsLine : Bool :=
  io.inspect && io.create && io.metadata &&
    decide ((s.file?.getD .empty).length size + size line ≤ limit) && io.write.isNone &&
    (io.sync || !io.cut)

theorem keepsLine_iff :
    ((s.append size limit line io).2 = .ok () ∨ s.leavesLine size limit line io = true) ↔
      s.keepsLine size limit line io = true := by
  unfold append leavesLine keepsLine
  cases io.inspect with
  | false => simp
  | true =>
    cases io.create with
    | false => simp
    | true =>
      cases io.metadata with
      | false => simp
      | true =>
        by_cases hfull : limit < (s.file?.getD .empty).length size + size line
        · simp [hfull, not_le.mpr hfull]
        cases io.write with
        | some => simp [hfull]
        | none =>
          cases io.sync with
          | false => simp [hfull, not_lt.mp hfull]
          | true =>
            cases s.entry.visible.isSome with
            | true => simp [hfull, not_lt.mp hfull]
            | false => cases io.directory <;> simp [hfull, not_lt.mp hfull]

/-- The lines a reader finds after an append. -/
theorem lines_append_eq :
    ((s.append size limit line io).1.file?.getD .empty).lines =
      if s.keepsLine size limit line io = true then ((s.file?.getD .empty).appendLine line).lines
      else (s.file?.getD .empty).lines := by
  rw [lines_append]
  simp only [keepsLine_iff]

end Append

theorem file?_append {size : ℓ → ℕ} {limit : ℕ} (h : (s.append size limit line io).2 = .ok () ∨
      (s.append size limit line io).2 = .error .directory) :
    (s.append size limit line io).1.file? = some ((s.file?.getD .empty).appendLine line) := by
  obtain ⟨t, e, -, he, hs⟩ | ⟨written, -, hs⟩ | ⟨r, -, hs⟩ | hs := append_cases size limit s line io
  · simp [hs, he] at h
  · simp [hs] at h
  · rw [hs, file?_flushed]
  · rw [hs, file?_syncDirectory, file?_flushed]

/-- An append never takes the file away. -/
theorem file?_of_append {size : ℓ → ℕ} {limit : ℕ}
    (h : (s.append size limit line io).1.file? = none) : s.file? = none := by
  obtain ⟨t, e, ht, -, hs⟩ | ⟨written, -, hs⟩ | ⟨r, -, hs⟩ | hs := append_cases size limit s line io <;>
    rw [hs] at h
  · rcases ht with rfl | rfl
    · exact h
    · simp [file?_opened] at h
  · cases hcut : io.cut <;> simp [file?_undo, hcut, file?_opened] at h
  all_goals simp [file?_flushed] at h

theorem file?_cutTorn (s : Slot ℓ) (cut cutSync : Bool) :
    (s.cutTorn cut cutSync).1.file? = s.file? ∨
      (s.cutTorn cut cutSync).1.file? = s.file?.map File.cut := by
  unfold cutTorn
  cases hf : s.file? with
  | none => exact .inl hf
  | some =>
    dsimp only
    split_ifs <;> simp [hf]

theorem follows_cutTorn (s : Slot ℓ) (cut cutSync : Bool) : Follows s (s.cutTorn cut cutSync).1 := by
  unfold cutTorn
  split
  · exact .refl s
  split_ifs
  · exact .refl s
  · exact .refl s
  · exact follows_put s _
  · exact (follows_put s _).trans (follows_syncFile _)

theorem torn_cutTorn {cut cutSync : Bool} (h : (s.cutTorn cut cutSync).2 = true) :
    ∀ f ∈ (s.cutTorn cut cutSync).1.file?, f.torn = 0 := by
  unfold cutTorn at h ⊢
  cases hf : s.file? with
  | none => simp [hf]
  | some g =>
    by_cases htorn : g.torn = 0
    · simp [hf, htorn]
    · cases cut <;> cases cutSync <;> simp [hf, htorn, File.cut] at h ⊢

theorem follows_read (size : ℓ → ℕ) (limit : ℕ) (accepts : List (Option ℓ) → Bool) (s : Slot ℓ)
    (io : ReadIo) : Follows s (s.read size limit accepts io).1 := by
  rcases read_fst size limit accepts s io with h | h <;> rw [h]
  · exact .refl s
  · exact follows_cutTorn s io.cut io.cutSync

theorem lines_read (size : ℓ → ℕ) (limit : ℕ) (accepts : List (Option ℓ) → Bool) (s : Slot ℓ)
    (io : ReadIo) :
    (s.read size limit accepts io).1.file?.map File.lines = s.file?.map File.lines := by
  rcases read_fst size limit accepts s io with h | h <;> rw [h]
  rcases file?_cutTorn s io.cut io.cutSync with hf | hf <;> rw [hf]
  rw [Option.map_map]
  rfl

theorem torn_read {size : ℓ → ℕ} {limit : ℕ} {io : ReadIo} {t : Slot ℓ}
    (h : s.read size limit accepts io = (t, .ok lines)) : ∀ f ∈ t.file?, f.torn = 0 := by
  obtain ⟨ht, -⟩ | ⟨-, -, hcut, -⟩ := read_eq_ok_cases h
  · simp [ht]
  · have htorn := torn_cutTorn (s := s) (congrArg Prod.snd hcut)
    rwa [hcut] at htorn

theorem follows_replace (s : Slot ℓ) (lines : List ℓ) (io : ReplaceIo) :
    Follows s (s.replace lines io).1 := by
  unfold replace
  split_ifs
  · exact .refl s
  · exact .refl s
  · exact .refl s
  all_goals exact .inr (Nat.lt_succ_self _)

/-- A replacement that fails leaves the file or is complete; one that succeeds is complete. -/
theorem file?_replace (s : Slot ℓ) (lines : List ℓ) (io : ReplaceIo) :
    (s.replace lines io).1.file? = some (.ofLines lines) ∨
      ((s.replace lines io).1 = s ∧ (s.replace lines io).2 ≠ .ok ()) := by
  unfold replace
  split_ifs
  · exact .inr ⟨rfl, nofun⟩
  · exact .inr ⟨rfl, nofun⟩
  · exact .inr ⟨rfl, nofun⟩
  all_goals exact .inl rfl

/-- The replacement gets as far as the rename. -/
def ReplaceIo.renames (io : ReplaceIo) : Bool := io.create && io.write && io.sync && io.rename

theorem file?_replace_eq (s : Slot ℓ) (lines : List ℓ) (io : ReplaceIo) :
    (s.replace lines io).1.file? = if io.renames then some (.ofLines lines) else s.file? := by
  unfold replace ReplaceIo.renames
  cases io.create <;> cases io.write <;> cases io.sync <;> cases io.rename <;>
    cases io.directory <;> simp

theorem replace_eq_ok (s : Slot ℓ) (lines : List ℓ) (io : ReplaceIo) :
    (s.replace lines io).2 = .ok () ↔ io.renames = true ∧ io.directory = true := by
  unfold replace ReplaceIo.renames
  cases io.create <;> cases io.write <;> cases io.sync <;> cases io.rename <;>
    cases io.directory <;> simp

/-- A replacement that does not get to the rename leaves the path as it is; after the rename only
the directory's synchronisation can fail. -/
theorem replace_renames (s : Slot ℓ) (lines : List ℓ) (io : ReplaceIo) :
    ((s.replace lines io).1 = s ∧ (s.replace lines io).2 ≠ .ok ()) ∨
      (io.renames = true ∧ (io.directory = true → (s.replace lines io).2 = .ok ())) := by
  unfold replace ReplaceIo.renames
  cases io.create <;> cases io.write <;> cases io.sync <;> cases io.rename <;>
    cases io.directory <;> simp

/-- What a successful replacement wrote is kept, whatever was there before. -/
theorem kept_replace {lines : List ℓ} {io : ReplaceIo} (hP : P (lines.map some))
    (h : (s.replace lines io).2 = .ok ()) : (s.replace lines io).1.Kept P := by
  have hnamed : (s.renamed (.ofLines lines)).KeptNamed P := by
    refine ⟨.settled (.ofLines lines), rfl, fun g hg => ?_⟩
    obtain rfl : g = .ofLines lines := by simpa [Durable.settled, Durable.values] using hg
    exact hP
  unfold replace at h ⊢
  split_ifs at h ⊢
  exact KeptNamed.kept hnamed rfl

/-! ### The size of the file -/

/-- The file is not longer than `limit`. -/
def Fits (size : ℓ → ℕ) (limit : ℕ) (s : Slot ℓ) : Prop := ∀ f ∈ s.file?, f.length size ≤ limit

variable {size : ℓ → ℕ} {limit : ℕ}

theorem length_cut_le (size : ℓ → ℕ) (f : File ℓ) : f.cut.length size ≤ f.length size := by
  simp [File.length, File.cut]

theorem length_appendLine_le (size : ℓ → ℕ) (f : File ℓ) (line : ℓ) :
    (f.appendLine line).length size ≤ f.length size + size line := by
  unfold File.length File.appendLine
  split <;> simp
  omega

theorem fits_read (h : s.Fits size limit) (accepts : List (Option ℓ) → Bool) (io : ReadIo) :
    (s.read size limit accepts io).1.Fits size limit := by
  rcases read_fst size limit accepts s io with heq | heq <;> rw [heq]
  · exact h
  intro f hf
  rcases file?_cutTorn s io.cut io.cutSync with hcut | hcut <;> rw [hcut] at hf
  · exact h f hf
  · obtain ⟨g, hg, rfl⟩ := Option.map_eq_some_iff.mp hf
    exact (length_cut_le size g).trans (h g hg)

/-- An append keeps to its limit. -/
theorem fits_append (h : s.Fits size limit) (line : ℓ) (io : AppendIo) :
    (s.append size limit line io).1.Fits size limit := by
  have hopened : s.opened.Fits size limit := by
    intro f hf
    rw [file?_opened, Option.mem_some_iff] at hf
    subst hf
    cases hs : s.file? with
    | none => exact zero_le
    | some g => exact h g hs
  unfold append
  split
  · exact h
  split
  · exact h
  dsimp only
  split
  · exact hopened
  split
  · exact hopened
  rename_i hroom
  have hroom := not_lt.mp hroom
  -- whatever is written stays within what the check allowed
  have hput : ∀ g : File ℓ, g.length size ≤ (s.file?.getD .empty).length size + size line →
      (s.opened.put g).Fits size limit := by
    intro g hg f hf
    rw [file?_put, file?_opened, Option.map_some, Option.mem_some_iff] at hf
    subst hf
    exact hg.trans hroom
  have hundo : ∀ t : Slot ℓ, t.Fits size limit → (t.undo (s.file?.getD .empty) io).Fits size limit := by
    intro t ht f hf
    rw [file?_undo] at hf
    split at hf
    · obtain ⟨g, -, rfl⟩ := Option.map_eq_some_iff.mp hf
      exact (Nat.le_add_right _ _).trans hroom
    · exact ht f hf
  have hsync : ∀ t : Slot ℓ, t.Fits size limit → t.syncFile.Fits size limit := by
    intro t ht f hf
    rw [file?_syncFile] at hf
    exact ht f hf
  have hline := length_appendLine_le size (s.file?.getD .empty) line
  split
  · rename_i k _
    refine hundo _ (hput _ ?_)
    simp only [File.length, File.appendTorn]
    omega
  split
  · exact hundo _ (hput _ hline)
  split
  · exact hsync _ (hput _ hline)
  split
  all_goals exact hsync _ (hput _ hline)

/-- Reading a file of the right size whose lines are accepted succeeds when every call does. -/
theorem read_clean (h : s.Fits size limit) (accepts : List (Option ℓ) → Bool)
    (haccepts : ∀ f ∈ s.file?, accepts f.lines = true) :
    (s.read size limit accepts .clean).2 = .ok (s.file?.map File.lines) := by
  unfold read
  cases hf : s.file? with
  | none => rfl
  | some f =>
    have hsize := h f hf
    have hlines := haccepts f hf
    simp only [ReadIo.clean, Bool.not_true, Bool.false_eq_true, if_false, not_lt.mpr hsize,
      hlines, cutTorn, hf]
    by_cases htorn : f.torn = 0
    all_goals simp [htorn]

/-- Appending a line that fits succeeds when every call does. -/
theorem append_clean {f : File ℓ} (hf : s.file? = some f)
    (hsize : f.length size + size line ≤ limit) :
    ∃ s', s.append size limit line .clean = (s', .ok ()) ∧ s'.file? = some (f.appendLine line) := by
  have hvisible : s.entry.visible.isSome = true := by
    cases hv : s.entry.visible with
    | none => simp [file?, hv] at hf
    | some => rfl
  refine ⟨s.flushed line, ?_, ?_⟩
  · simp [append, AppendIo.clean, hf, not_lt.mpr hsize, hvisible, flushed]
  · rw [file?_flushed, hf]
    rfl

end Slot

end Storage
