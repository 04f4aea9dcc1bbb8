import BlindPass.Broker.RevocationJournal
import BlindPass.Library.Execution
import BlindPass.Library.Table

/-!
# Revocations survive a restart

A process keeps tombstones in memory and appends them to a file; acknowledged outcomes go to a
second one, and pruning rewrites both. Whatever appends fail, a restart brings back what the
process held, except for the tombstones it knows to be unpersisted. This needs that no line is
put behind a part of another: an append that cannot be taken back leaves such a part, and the
next append does not look for it. It also needs that a pruning does not stop between the two
files.
-/

namespace BlindPass.Broker

open Storage (Slot File)
open Execution
open RevocationJournal (Disk OpenIo PruneIo)
open RevocationLine (isReadable size)
open Std.TreeMap (contains_eq_isSome_getElem? getElem?_filter' getElem?_insert getElem?_insert_self)

/-! ### The store and its events -/

/-- The two files, and the journal of the process that has them open. -/
structure RevocationStore where
  journal : Option RevocationJournal
  disk : Disk

/-- A call of the process, or its restart. -/
inductive RevocationEvent
  | record (grantId : String) (retainUntilMs : ℕ) (outcome : Option (RevocationOutcome × ℕ))
      (io : Slot.AppendIo)
  | acknowledgeOutcome (grantId : String) (io : Slot.AppendIo)
  | retryUnpersisted (io : String → Slot.AppendIo)
  | prune (authenticatedTimeMs : ℕ) (io : PruneIo)
  | reopen (io : OpenIo)

namespace RevocationStore

/-- A call of the process, which needs an open journal. -/
def call (s : RevocationStore)
    (f : RevocationJournal → Disk → RevocationJournal × Disk × Except String Unit) :
    RevocationStore × Option (Except String Unit) :=
  match s.journal with
  | none => (s, none)
  | some j =>
    match f j s.disk with
    | (j, disk, result) => (⟨some j, disk⟩, some result)

/-- One step. A restart that fails leaves no process. -/
def step (s : RevocationStore) : RevocationEvent → RevocationStore × Option (Except String Unit)
  | .record grantId retainUntilMs outcome io =>
    s.call fun j disk => j.record disk grantId retainUntilMs outcome io
  | .acknowledgeOutcome grantId io => s.call fun j disk => j.acknowledgeOutcome disk grantId io
  | .retryUnpersisted io => s.call fun j disk => j.retryUnpersisted disk io
  | .prune authenticatedTimeMs io => s.call fun j disk => j.prune disk authenticatedTimeMs io
  | .reopen io =>
    match RevocationJournal.open s.disk io with
    | (disk, .error e) => (⟨none, disk⟩, some (.error e))
    | (disk, .ok j) => (⟨some j, disk⟩, some (.ok ()))

end RevocationStore

/-- The calls that the broker makes: a revocation that was validated has a grant id and times
that are not zero. -/
def RevocationEvent.IsCall : RevocationEvent → Prop
  | .record grantId retainUntilMs outcome _ =>
    Fleet.isValidOpaqueId grantId = true ∧ retainUntilMs ≠ 0 ∧ ∀ o ∈ outcome, o.2 ≠ 0
  | _ => True

/-- The store of one process, from its installation on. -/
def revocations : Machine RevocationStore RevocationEvent (Option (Except String Unit)) where
  Start s := s.journal = none ∧ s.disk = ⟨.absent, .absent⟩
  Admits _ e := e.IsCall
  step := RevocationStore.step

/-! ### Steps that lose track of the files -/

/-- The bytes of an unterminated last line. -/
def tornBytes (slot : Slot RevocationLine) : ℕ := (slot.file?.getD .empty).torn

namespace RevocationJournal

/-- The line is put behind an unterminated one. -/
def runsOn (slot : Slot RevocationLine) (line : RevocationLine) (io : Slot.AppendIo) : Bool :=
  tornBytes slot != 0 && slot.keepsLine size grantJournalMaxBytes line io

variable (j : RevocationJournal)

/-- The append of a tombstone puts its line behind an unterminated one. -/
def appendRunsOn (disk : Disk) (grantId : String) (io : Slot.AppendIo) : Bool :=
  decide (j.tombstones.size ≤ grantJournalMaxRecords) &&
    j.tombstones[grantId]?.any fun retainUntilMs =>
      runsOn disk.journal ⟨grantId, retainUntilMs, j.outcomes[grantId]?⟩ io

/-- The lines make a file that can be opened. -/
def fitsFile (lines : List RevocationLine) : Bool :=
  decide ((lines.map size).sum ≤ grantJournalMaxBytes)

/-- There is nothing to compact in the acknowledgements. -/
def skipsAcknowledgements (disk : Disk) : Bool :=
  j.acknowledgedOutcomes.isEmpty && disk.acknowledgements.file?.isNone

/-- The pruning replaces the acknowledgements. -/
def replacesAcknowledgements (disk : Disk) (io : PruneIo) : Bool :=
  !j.skipsAcknowledgements disk && io.acknowledgements.renames

/-- The pruning replaces the journal. -/
def replacesJournal (disk : Disk) (io : PruneIo) : Bool :=
  (j.skipsAcknowledgements disk || io.acknowledgements.renames && io.acknowledgements.directory) &&
    io.journal.renames

/-- The pruning drops an acknowledged outcome and then stops before it replaces the journal, or
replaces the journal and fails, or writes a file that cannot be opened. -/
def pruneBreaks (disk : Disk) (authenticatedTimeMs : ℕ) (io : PruneIo) : Bool :=
  let kept := j.retained authenticatedTimeMs
  kept.size != j.tombstones.size &&
    (j.replacesAcknowledgements disk io &&
        (!fitsFile (j.compactedAcknowledgements kept) ||
          !j.replacesJournal disk io && j.acknowledgedOutcomes.toList.any fun id =>
            !kept.contains id) ||
      j.replacesJournal disk io &&
        (!io.journal.directory || !fitsFile (j.compactedLines kept) ||
          decide (grantJournalMaxRecords < kept.size)))

end RevocationJournal

open RevocationJournal

/-- The step loses track of the files. -/
def RevocationEvent.breaks (s : RevocationStore) (e : RevocationEvent) : Bool :=
  s.journal.any fun j =>
    match e with
    | .record grantId retainUntilMs outcome io =>
      (j.raisesRetention grantId retainUntilMs || j.unpersisted.contains grantId) &&
        (j.inForce grantId retainUntilMs outcome).appendRunsOn s.disk grantId io
    | .acknowledgeOutcome grantId io =>
      j.outcomes.contains grantId && !j.acknowledgedOutcomes.contains grantId &&
        j.tombstones[grantId]?.any fun retainUntilMs =>
          runsOn s.disk.acknowledgements ⟨grantId, retainUntilMs, none⟩ io
    | .retryUnpersisted io =>
      j.unpersisted.toList.head?.any fun id => j.appendRunsOn s.disk id (io id)
    | .prune authenticatedTimeMs io => j.pruneBreaks s.disk authenticatedTimeMs io
    | .reopen _ => false

/-! ### What the lines of the files say -/

/-- What the lines of the journal say. -/
def storedBy (J : List RevocationLine) : RevocationJournal := J.foldl readLine .empty

theorem readTombstones_eq {J : List RevocationLine} (h : ∀ l ∈ J, l.isReadable = true)
    (j : RevocationJournal) : readTombstones (J.map some) j = .ok (J.foldl readLine j) := by
  induction J generalizing j with
  | nil => rfl
  | cons l rest ih =>
    have hl := h l (.head _)
    simp only [List.map_cons, readTombstones, hl, Bool.not_true, Bool.false_eq_true, if_false,
      List.foldl_cons]
    exact ih (fun l' hl' => h l' (.tail l hl')) _

section StoredBy

variable {J A : List RevocationLine} {l : RevocationLine} {id : String} {r : ℕ}

theorem storedBy_append : storedBy (J ++ [l]) = (storedBy J).readLine l := by
  rw [storedBy, List.foldl_append]
  rfl

theorem contains_iff {α : Type*} {t : Std.TreeMap String α} :
    t.contains id = true ↔ ∃ r, t[id]? = some r := by
  rw [contains_eq_isSome_getElem?, Option.isSome_iff_exists]

/-- The longest retention of the lines about a grant is in force. -/
theorem tombstones_storedBy : (storedBy J).tombstones[id]? =
    ((J.filter fun l => l.grantId == id).map fun l => l.retainUntilMs).max? := by
  induction J using List.reverseRecOn with
  | nil => rfl
  | append_singleton J last ih =>
    rw [storedBy_append, readLine, List.filter_append, List.map_append]
    by_cases hid : last.grantId = id
    · subst hid
      have hconcat (xs : List ℕ) (r : ℕ) : (xs ++ [r]).max? = some (max (xs.max?.getD 0) r) := by
        cases xs with
        | nil => simp
        | cons x xs => simp [-List.max?_cons, List.max?_cons', List.foldl_append]
      rw [getElem?_insert_self, ih]
      simp [hconcat]
    · simp [getElem?_insert, hid, ih]

theorem le_tombstones_storedBy (h : l ∈ J) :
    ∃ r, (storedBy J).tombstones[l.grantId]? = some r ∧ l.retainUntilMs ≤ r := by
  have hmem : l.retainUntilMs ∈ (J.filter fun l' => l'.grantId == l.grantId).map fun l =>
      l.retainUntilMs := List.mem_map_of_mem (List.mem_filter.mpr ⟨h, by simp⟩)
  obtain ⟨r, hr⟩ := Option.isSome_iff_exists.mp (List.isSome_max?_of_mem hmem)
  exact ⟨r, tombstones_storedBy.trans hr, (List.max?_eq_some_iff.mp hr).2 _ hmem⟩

theorem exists_of_tombstones_storedBy (h : (storedBy J).tombstones[id]? = some r) :
    ∃ l ∈ J, l.grantId = id ∧ l.retainUntilMs = r := by
  rw [tombstones_storedBy] at h
  simpa [and_assoc] using List.max?_mem h

/-- The first outcome of the lines about a grant is in force. -/
theorem outcomes_storedBy_eq : (storedBy J).outcomes[id]? =
    (J.filter fun l => l.grantId == id).findSome? fun l => l.outcome := by
  induction J using List.reverseRecOn with
  | nil => rfl
  | append_singleton J last ih =>
    rw [storedBy_append, readLine, List.filter_append, List.findSome?_append, ← ih]
    cases hlast : last.outcome with
    | none => by_cases hid : last.grantId = id <;> simp [hid, hlast]
    | some o =>
      simp only [Std.TreeMap.getElem?_insertIfNew]
      by_cases hid : last.grantId = id
      · subst hid
        simp only [← Std.TreeMap.contains_iff_mem, contains_eq_isSome_getElem?]
        cases (storedBy J).outcomes[last.grantId]? <;> simp [hlast]
      · simp [hid]

theorem exists_of_outcomes_storedBy {o : RevocationOutcome × ℕ}
    (h : (storedBy J).outcomes[id]? = some o) : ∃ l ∈ J, l.grantId = id ∧ l.outcome = some o := by
  rw [outcomes_storedBy_eq] at h
  simpa [and_assoc] using List.exists_of_findSome?_eq_some h

/-- The lines about one grant have one outcome. -/
def Agreeing (J : List RevocationLine) : Prop :=
  ∀ l ∈ J, ∀ l' ∈ J, l.grantId = l'.grantId → l.outcome = l'.outcome

theorem outcomes_storedBy (hagree : Agreeing J) (h : l ∈ J) :
    (storedBy J).outcomes[l.grantId]? = l.outcome := by
  cases hfound : (storedBy J).outcomes[l.grantId]? with
  | some o =>
    obtain ⟨l', hl', hid, ho⟩ := exists_of_outcomes_storedBy hfound
    rw [← ho, hagree l' hl' l h hid]
  | none =>
    rw [outcomes_storedBy_eq, List.findSome?_eq_none_iff] at hfound
    exact (hfound l (List.mem_filter.mpr ⟨h, by simp⟩)).symm

/-- The grants of the acknowledgements that have an outcome. -/
def acknowledgedBy (j : RevocationJournal) (A : List RevocationLine) : RevocationJournal :=
  { j with
    acknowledgedOutcomes := A.foldl (fun acknowledged l =>
      if j.outcomes.contains l.grantId then acknowledged.insert l.grantId else acknowledged)
      j.acknowledgedOutcomes }

theorem readAcknowledgements_eq (hreadable : ∀ l ∈ A, l.isReadable = true)
    (hplain : ∀ l ∈ A, l.outcome = none) (j : RevocationJournal) :
    readAcknowledgements (A.map some) j = .ok (acknowledgedBy j A) := by
  induction A generalizing j with
  | nil => rfl
  | cons l rest ih =>
    have hl := hreadable l (.head _)
    have hnone := hplain l (.head _)
    simp only [List.map_cons, readAcknowledgements, hl, hnone, Bool.not_true, Bool.false_eq_true,
      if_false, Option.isSome_none]
    rw [ih (fun l' hl' => hreadable l' (.tail l hl'))
      (fun l' hl' => hplain l' (.tail l hl'))]
    rfl

variable {j : RevocationJournal}

theorem contains_acknowledgedBy_iff : (acknowledgedBy j A).acknowledgedOutcomes.contains id = true ↔
      j.acknowledgedOutcomes.contains id = true ∨
        ∃ l ∈ A, l.grantId = id ∧ j.outcomes.contains id = true := by
  rw [acknowledgedBy]
  induction A using List.reverseRecOn with
  | nil => simp
  | append_singleton A last ih =>
    rw [List.foldl_append]
    dsimp only [List.foldl_cons, List.foldl_nil]
    split
    · rw [Std.TreeSet.contains_insert, Bool.or_eq_true, ih]
      simp only [List.mem_append, List.mem_singleton]
      grind [Std.LawfulEqOrd.compare_eq_iff_eq]
    · rw [ih]
      simp only [List.mem_append, List.mem_singleton]
      grind

end StoredBy

/-! ### What the files hold -/

/-- The files hold the lines `J` and `A`, and can be opened. -/
structure Stored (disk : Disk) (J A : List RevocationLine) : Prop where
  journal : (disk.journal.file?.getD .empty).lines = J.map some
  acknowledgements : (disk.acknowledgements.file?.getD .empty).lines = A.map some
  readable : ∀ l ∈ J, l.isReadable = true
  acknowledgementsReadable : ∀ l ∈ A, l.isReadable = true ∧ l.outcome = none
  agreeing : Agreeing J
  bounded : (storedBy J).tombstones.size ≤ grantJournalMaxRecords
  fits : disk.journal.Fits size grantJournalMaxBytes
  acknowledgementsFit : disk.acknowledgements.Fits size grantJournalMaxBytes

/-- What a process that opens the files gets. -/
def loaded (J A : List RevocationLine) : RevocationJournal := acknowledgedBy (storedBy J) A

variable {slot : Slot RevocationLine} {io : Slot.AppendIo} {grantId : String}

section Open

variable {J A : List RevocationLine} {disk : Disk}

/-- A file is read as its lines are, if no call fails; reading changes no line. -/
theorem readFile_spec (errorText : Slot.ReadError → String)
    (readLines : List (Option RevocationLine) → RevocationJournal → Except String RevocationJournal)
    {j : RevocationJournal} (hnil : readLines [] j = .ok j) {lines : List (Option RevocationLine)}
    (hlines : (slot.file?.getD .empty).lines = lines)
    (hfits : slot.Fits size grantJournalMaxBytes) (io : Slot.ReadIo) :
    ((readFile errorText readLines j slot io).1.file?.getD .empty).lines = lines ∧
      (readFile errorText readLines j slot io).1.Fits size grantJournalMaxBytes ∧
      (∀ j', (readFile errorText readLines j slot io).2 = .ok j' → readLines lines j = .ok j') ∧
      (io = .clean → (readFile errorText readLines j slot io).2 = readLines lines j) := by
  have hfst : (readFile errorText readLines j slot io).1 =
      (slot.read size grantJournalMaxBytes (fun _ => true) io).1 := by
    unfold readFile
    split <;> rename_i heq <;> rw [heq]
  have hsame : ((slot.read size grantJournalMaxBytes (fun _ => true) io).1.file?.getD
      .empty).lines = lines := by
    have hread := Slot.lines_read size grantJournalMaxBytes (fun _ => true) slot io
    rw [← hlines]
    cases hf : slot.file? <;>
      cases hf' : (slot.read size grantJournalMaxBytes (fun _ => true) io).1.file? <;>
        simp_all
  refine ⟨by rw [hfst, hsame], ?_, fun j' hok => ?_, fun hclean => ?_⟩
  · rw [hfst]
    exact Slot.fits_read hfits _ io
  · unfold readFile at hok
    split at hok
    · cases hok
    · rename_i heq
      have hnone := Slot.read_eq_ok heq
      cases hf : slot.file? with
      | some => simp [hf] at hnone
      | none =>
        rw [hf] at hlines
        subst hlines
        exact hnil.trans hok
    · rename_i found heq
      have hfound := Slot.read_eq_ok heq
      cases hf : slot.file? with
      | none => simp [hf] at hfound
      | some f =>
        rw [hf] at hlines hfound
        obtain rfl : found = f.lines := by simpa using hfound
        rw [← hlines]
        exact hok
  · subst hclean
    have hread := Slot.read_clean hfits (fun _ => true) fun _ _ => rfl
    unfold readFile
    rcases hresult : slot.read size grantJournalMaxBytes (fun _ => true) .clean
      with ⟨slot', result⟩
    rw [hresult] at hread
    subst hread
    cases hf : slot.file? with
    | none =>
      rw [hf] at hlines
      subst hlines
      exact hnil.symm
    | some =>
      rw [hf] at hlines
      subst hlines
      rfl

/-- Opening the files changes no line, and a process that opens them gets what they hold. -/
theorem Stored.open_spec (h : Stored disk J A) (io : OpenIo) :
    Stored (RevocationJournal.open disk io).1 J A ∧
      (∀ j, (RevocationJournal.open disk io).2 = .ok j → j = loaded J A) ∧
      (io = ⟨.clean, .clean⟩ → (RevocationJournal.open disk io).2 = .ok (loaded J A)) := by
  obtain ⟨hlines, hfits, hread, hclean⟩ := readFile_spec readErrorText readTombstones
    (j := .empty) rfl h.journal h.fits io.journal
  have hjournal : readTombstones (J.map some) .empty = .ok (storedBy J) :=
    readTombstones_eq h.readable .empty
  obtain ⟨hlines', hfits', hread', hclean'⟩ := readFile_spec acknowledgementReadErrorText
    readAcknowledgements (j := storedBy J) rfl h.acknowledgements h.acknowledgementsFit
    io.acknowledgements
  have hacknowledged : readAcknowledgements (A.map some) (storedBy J) = .ok (loaded J A) :=
    readAcknowledgements_eq (fun l hl => (h.acknowledgementsReadable l hl).1)
      (fun l hl => (h.acknowledgementsReadable l hl).2) (storedBy J)
  rw [hjournal] at hread hclean
  rw [hacknowledged] at hread' hclean'
  rcases hfirst : readFile readErrorText readTombstones .empty disk.journal io.journal
    with ⟨slot, result⟩
  rw [hfirst] at hlines hfits hread hclean
  have htorn : Stored { disk with journal := slot } J A :=
    { h with journal := hlines, fits := hfits }
  cases result with
  | error e =>
    have hopen : RevocationJournal.open disk io = ({ disk with journal := slot }, .error e) := by
      simp only [RevocationJournal.open, hfirst]
    rw [hopen]
    refine ⟨htorn, nofun, fun hio => ?_⟩
    exact absurd (hclean (by rw [hio])) nofun
  | ok j =>
    obtain rfl : storedBy J = j := Except.ok.inj (hread j rfl)
    rcases hsecond : readFile acknowledgementReadErrorText readAcknowledgements (storedBy J)
      disk.acknowledgements io.acknowledgements with ⟨slot', result⟩
    rw [hsecond] at hlines' hfits' hread' hclean'
    have hopen : RevocationJournal.open disk io = (⟨slot, slot'⟩, result) := by
      simp only [RevocationJournal.open, hfirst, if_neg (not_lt.mpr h.bounded), hsecond]
    rw [hopen]
    refine ⟨{ htorn with acknowledgements := hlines', acknowledgementsFit := hfits' },
      fun j hj => ?_, fun hio => ?_⟩
    · exact (Except.ok.inj (hread' j hj)).symm
    · exact hclean' (by rw [hio])

end Open

/-! ### Memory and files -/

/-- The files cover what the process holds: every line is about a tombstone in force, and a
tombstone that is not in the journal counts as unpersisted. -/
structure Covers (j : RevocationJournal) (J A : List RevocationLine) : Prop where
  entered : ∀ l ∈ J, ∃ r, j.tombstones[l.grantId]? = some r ∧ l.retainUntilMs ≤ r ∧
    l.outcome = j.outcomes[l.grantId]?
  kept : ∀ (id : String) (r : ℕ), j.tombstones[id]? = some r → j.unpersisted.contains id = false →
    ∃ l ∈ J, l.grantId = id ∧ l.retainUntilMs = r
  acknowledged : ∀ id, j.acknowledgedOutcomes.contains id = true → ∃ l ∈ A, l.grantId = id
  outcomes : ∀ id, j.outcomes.contains id = true → j.tombstones.contains id = true
  tombstonesValid : ∀ (id : String) (r : ℕ), j.tombstones[id]? = some r →
    Fleet.isValidOpaqueId id = true ∧ r ≠ 0
  outcomesValid : ∀ (id : String) (o : RevocationOutcome × ℕ), j.outcomes[id]? = some o → o.2 ≠ 0

namespace Covers

variable {j j' : RevocationJournal} {J A : List RevocationLine} {disk : Disk} {id : String} {r : ℕ}

/-- The line of a tombstone can be read. -/
theorem isReadable_line (h : Covers j J A) (hr : j.tombstones[id]? = some r) :
    isReadable ⟨id, r, j.outcomes[id]?⟩ = true := by
  obtain ⟨hid, hpos⟩ := h.tombstonesValid id r hr
  cases ho : j.outcomes[id]? with
  | none => simp [isReadable, hid, hpos]
  | some o => simp [isReadable, hid, hpos, h.outcomesValid id o ho]

/-- The journal of the file has no more tombstones than the process. -/
theorem size_storedBy_le (h : ∀ l ∈ J, j.tombstones.contains l.grantId = true) :
    (storedBy J).tombstones.size ≤ j.tombstones.size := by
  apply Table.size_le_of_keys
  intro id hid
  obtain ⟨r, hr⟩ := contains_iff.mp hid
  obtain ⟨l, hl, rfl, -⟩ := exists_of_tombstones_storedBy hr
  exact h l hl

/-- A process that opens the files is covered by them. -/
theorem of_loaded (h : Stored disk J A) : Covers (loaded J A) J A where
  entered l hl := by
    obtain ⟨r, hr, hle⟩ := le_tombstones_storedBy hl
    exact ⟨r, hr, hle, (outcomes_storedBy h.agreeing hl).symm⟩
  kept id r hr _ := exists_of_tombstones_storedBy hr
  acknowledged id hid := by
    have hempty : (storedBy J).acknowledgedOutcomes = (∅ : Std.TreeSet String) := by
      clear h hid
      induction J using List.reverseRecOn with
      | nil => rfl
      | append_singleton J l ih => rw [storedBy_append, ← ih]; rfl
    rcases contains_acknowledgedBy_iff.mp hid with hnone | ⟨l, hl, heq, -⟩
    · rw [hempty] at hnone
      cases hnone
    · exact ⟨l, hl, heq⟩
  outcomes id hid := by
    obtain ⟨o, ho⟩ := contains_iff.mp hid
    obtain ⟨l, hl, rfl, -⟩ := exists_of_outcomes_storedBy ho
    obtain ⟨r, hr, -⟩ := le_tombstones_storedBy hl
    exact contains_iff.mpr ⟨r, hr⟩
  tombstonesValid id r hr := by
    obtain ⟨l, hl, rfl, rfl⟩ := exists_of_tombstones_storedBy hr
    have hreadable := h.readable l hl
    simp only [isReadable, Bool.and_eq_true, bne_iff_ne, ne_eq] at hreadable
    exact hreadable.1
  outcomesValid id o ho := by
    obtain ⟨l, hl, -, hout⟩ := exists_of_outcomes_storedBy ho
    have hreadable := h.readable l hl
    simp only [isReadable, hout, Bool.and_eq_true, Option.all_some, bne_iff_ne,
      ne_eq] at hreadable
    exact hreadable.2

/-- A restart brings back every tombstone and outcome that is not unpersisted, and every
acknowledgement of an outcome that it brings back. -/
theorem loaded_eq (h : Covers j J A) (hstored : Stored disk J A) :
    (∀ id, j.unpersisted.contains id = false → (loaded J A).tombstones[id]? = j.tombstones[id]? ∧
        (loaded J A).outcomes[id]? = j.outcomes[id]?) ∧
    ∀ id, j.acknowledgedOutcomes.contains id = true → (loaded J A).outcomes.contains id = true →
      (loaded J A).acknowledgedOutcomes.contains id = true := by
  refine ⟨fun id hid => ?_, fun id hack hout => ?_⟩
  · have htomb : (loaded J A).tombstones = (storedBy J).tombstones := rfl
    have hout : (loaded J A).outcomes = (storedBy J).outcomes := rfl
    rw [htomb, hout]
    cases hr : j.tombstones[id]? with
    | some r =>
      obtain ⟨l, hl, rfl, rfl⟩ := h.kept id r hr hid
      obtain ⟨r', hr', -, ho⟩ := h.entered l hl
      refine ⟨?_, (outcomes_storedBy hstored.agreeing hl).trans ho⟩
      -- the longest retention in the file is the one in force
      obtain ⟨longest, hlongest, hle⟩ := le_tombstones_storedBy hl
      obtain ⟨l', hl', hid', rfl⟩ := exists_of_tombstones_storedBy hlongest
      obtain ⟨r'', hr'', hle', -⟩ := h.entered l' hl'
      rw [hid', hr] at hr''
      cases hr''
      rw [hlongest, Nat.le_antisymm hle' hle]
    | none =>
      have hnone : ∀ l ∈ J, l.grantId ≠ id := by
        rintro l hl rfl
        obtain ⟨r, hr', -⟩ := h.entered l hl
        rw [hr] at hr'
        cases hr'
      refine ⟨?_, ?_⟩
      · rw [Option.eq_none_iff_forall_ne_some]
        intro r hr'
        obtain ⟨l, hl, hid', -⟩ := exists_of_tombstones_storedBy hr'
        exact hnone l hl hid'
      · have hmemory : j.outcomes[id]? = none := by
          rw [Option.eq_none_iff_forall_ne_some]
          intro o ho
          obtain ⟨r, hr'⟩ := contains_iff.mp (h.outcomes id (contains_iff.mpr ⟨o, ho⟩))
          cases hr.symm.trans hr'
        rw [hmemory, Option.eq_none_iff_forall_ne_some]
        intro o ho
        obtain ⟨l, hl, hid', -⟩ := exists_of_outcomes_storedBy ho
        exact hnone l hl hid'
  · obtain ⟨l, hl, rfl⟩ := h.acknowledged id hack
    exact contains_acknowledgedBy_iff.mpr (.inr ⟨l, hl, rfl, hout⟩)

end Covers

/-! ### Appending -/

variable {outcome : Option (RevocationOutcome × ℕ)} {retainUntilMs : ℕ}

section Append

variable {j j' : RevocationJournal} {J A : List RevocationLine} {disk disk' : Disk} {id : String}
  {r : ℕ} {result : Except String Unit}

/-- What a line adds to a file without a tail, or with one that it is not put behind. -/
theorem lines_append_of_not_runsOn {lines : List RevocationLine} {line : RevocationLine}
    (hlines : (slot.file?.getD .empty).lines = lines.map some) (h : runsOn slot line io = false) :
    ∃ lines', ((slot.append RevocationLine.size grantJournalMaxBytes line io).1.file?.getD
        .empty).lines = lines'.map some ∧ (lines' = lines ∨ lines' = lines ++ [line]) ∧
      ((slot.append RevocationLine.size grantJournalMaxBytes line io).2 = .ok () →
        lines' = lines ++ [line]) := by
  rw [Slot.lines_append_eq]
  by_cases hkeeps : slot.keepsLine size grantJournalMaxBytes line io = true
  · have htorn : (slot.file?.getD .empty).torn = 0 := by
      rw [runsOn, hkeeps, Bool.and_true, bne_eq_false_iff_eq] at h
      exact h
    refine ⟨lines ++ [line], ?_, .inr rfl, fun _ => rfl⟩
    rw [if_pos hkeeps, File.appendLine, if_pos htorn, hlines, List.map_append]
    rfl
  · refine ⟨lines, ?_, .inl rfl, fun hok => ?_⟩
    · rw [if_neg hkeeps, hlines]
    · exact absurd ((Slot.keepsLine_iff ..).mp (.inl hok)) hkeeps

/-- The line of a tombstone in force may be added to the journal. -/
theorem Stored.push (h : Stored disk J A) (hj : Covers j J A) (hr : j.tombstones[id]? = some r)
    (hsize : j.tombstones.size ≤ grantJournalMaxRecords) (hlines : (slot.file?.getD .empty).lines =
      (J ++ [⟨id, r, j.outcomes[id]?⟩] : List RevocationLine).map some)
    (hfits : slot.Fits size grantJournalMaxBytes) :
    Stored { disk with journal := slot } (J ++ [⟨id, r, j.outcomes[id]?⟩]) A := by
  have houtcome : ∀ l ∈ J ++ [⟨id, r, j.outcomes[id]?⟩], l.outcome = j.outcomes[l.grantId]? := by
    intro l hl
    rcases List.mem_append.mp hl with hl | hl
    · obtain ⟨-, -, -, ho⟩ := hj.entered l hl
      exact ho
    · rw [List.mem_singleton.mp hl]
  refine { h with
    journal := hlines, fits := hfits, readable := fun l hl => ?_,
    agreeing := fun l hl l' hl' hid => ?_, bounded := ?_ }
  · rcases List.mem_append.mp hl with hl | hl
    · exact h.readable l hl
    · rw [List.mem_singleton.mp hl]
      exact hj.isReadable_line hr
  · rw [houtcome l hl, houtcome l' hl', hid]
  · refine (Covers.size_storedBy_le fun l hl => ?_).trans hsize
    rcases List.mem_append.mp hl with hl | hl
    · obtain ⟨r', hr', -⟩ := hj.entered l hl
      exact contains_iff.mpr ⟨r', hr'⟩
    · rw [List.mem_singleton.mp hl]
      exact contains_iff.mpr ⟨r, hr⟩

theorem Covers.push (h : Covers j J A) (hr : j.tombstones[id]? = some r) :
    Covers j (J ++ [⟨id, r, j.outcomes[id]?⟩]) A :=
  { h with
    entered := by
      intro l hl
      rcases List.mem_append.mp hl with hl | hl
      · exact h.entered l hl
      · rw [List.mem_singleton.mp hl]
        exact ⟨r, hr, Nat.le_refl r, rfl⟩
    kept := by
      intro id' r' hr' hpersisted
      obtain ⟨l, hl, hrest⟩ := h.kept id' r' hr' hpersisted
      exact ⟨l, List.mem_append_left _ hl, hrest⟩ }

/-- A tombstone whose line is in the journal no longer counts as unpersisted. -/
theorem Covers.persist (h : Covers j J A) (hr : j.tombstones[id]? = some r) :
    Covers { j with unpersisted := j.unpersisted.erase id } (J ++ [⟨id, r, j.outcomes[id]?⟩]) A :=
  { h.push hr with
    kept := by
      intro id' r' hr' hpersisted
      by_cases hid : id = id'
      · subst hid
        obtain rfl := Option.mem_unique hr hr'
        exact ⟨_, List.mem_append_right _ (.head _), rfl, rfl⟩
      · refine (h.push hr).kept id' r' hr' ?_
        simpa [Std.TreeSet.contains_erase, hid] using hpersisted }

theorem append_covers (h : Stored disk J A) (hj : Covers j J A)
    (hruns : j.appendRunsOn disk id io = false) (happend : j.append disk id io = (disk', result)) :
    ∃ J', Stored disk' J' A ∧ Covers j J' A ∧
      (result = .ok () → Covers { j with unpersisted := j.unpersisted.erase id } J' A ∧
        tornBytes disk'.journal = 0) := by
  unfold RevocationJournal.append at happend
  cases hr : j.tombstones[id]? with
  | none =>
    rw [hr] at happend
    cases happend
    exact ⟨J, h, hj, nofun⟩
  | some r =>
    rw [hr] at happend
    dsimp only at happend
    by_cases hfull : grantJournalMaxRecords < j.tombstones.size
    · rw [if_pos hfull] at happend
      cases happend
      exact ⟨J, h, hj, nofun⟩
    · rw [if_neg hfull] at happend
      have hsize := not_lt.mp hfull
      have hruns' : runsOn disk.journal ⟨id, r, j.outcomes[id]?⟩ io = false := by
        simpa [appendRunsOn, hsize, hr] using hruns
      obtain ⟨J', hlines, hJ', hok⟩ := lines_append_of_not_runsOn h.journal hruns'
      have hfits := Slot.fits_append h.fits ⟨id, r, j.outcomes[id]?⟩ io
      have hfile := @Slot.file?_append _ disk.journal ⟨id, r, j.outcomes[id]?⟩ io
        size grantJournalMaxBytes
      rcases hslot : disk.journal.append RevocationLine.size grantJournalMaxBytes
        ⟨id, r, j.outcomes[id]?⟩ io with ⟨slot, res⟩
      rw [hslot] at happend hlines hok hfits hfile
      -- the journal is as before, or has the line
      have hstored : Stored { disk with journal := slot } J' A := by
        rcases hJ' with rfl | rfl
        · exact { h with journal := hlines, fits := hfits }
        · exact h.push hj hr hsize hlines hfits
      have hcovers : Covers j J' A := by
        rcases hJ' with rfl | rfl
        · exact hj
        · exact hj.push hr
      cases res with
      | error =>
        cases happend
        exact ⟨J', hstored, hcovers, nofun⟩
      | ok =>
        cases happend
        refine ⟨J', hstored, hcovers, fun _ => ⟨?_, ?_⟩⟩
        · rw [hok rfl]
          exact hj.persist hr
        · rw [tornBytes, hfile (.inl rfl)]
          rfl

/-- A revocation shortens no retention. -/
theorem tombstones_le_inForce (grantId : String) (retainUntilMs : ℕ)
    (outcome : Option (RevocationOutcome × ℕ)) (hr : j.tombstones[id]? = some r) :
    ∃ r', (j.inForce grantId retainUntilMs outcome).tombstones[id]? = some r' ∧ r ≤ r' := by
  by_cases heq : id = grantId
  · subst heq
    unfold RevocationJournal.inForce
    split
    · rename_i hraises
      rw [raisesRetention, hr, Option.all_some, decide_eq_true_eq] at hraises
      exact ⟨retainUntilMs, getElem?_insert_self, Nat.le_of_lt hraises⟩
    · exact ⟨r, hr, Nat.le_refl r⟩
  · rw [tombstones_inForce_of_ne outcome heq]
    exact ⟨r, hr, Nat.le_refl r⟩

/-- A revocation in force in memory is covered, since it counts as unpersisted. -/
theorem Covers.inForce (h : Covers j J A) (hid : Fleet.isValidOpaqueId grantId = true)
    (hpos : retainUntilMs ≠ 0) (hout : ∀ o ∈ outcome, o.2 ≠ 0) :
    Covers (j.inForce grantId retainUntilMs outcome) J A := by
  have htomb : ∀ (id : String) (r : ℕ),
      (j.inForce grantId retainUntilMs outcome).tombstones[id]? = some r →
        j.tombstones[id]? = some r ∨ (id = grantId ∧ r = retainUntilMs) := by
    intro id r hr
    by_cases heq : id = grantId
    · subst heq
      unfold RevocationJournal.inForce at hr
      dsimp only at hr
      split at hr
      · rw [getElem?_insert_self, Option.some.injEq] at hr
        exact .inr ⟨rfl, hr.symm⟩
      · exact .inl hr
    · rw [tombstones_inForce_of_ne outcome heq] at hr
      exact .inl hr
  have houtcomes : ∀ id, j.tombstones.contains id = true →
      (j.inForce grantId retainUntilMs outcome).outcomes[id]? = j.outcomes[id]? := by
    intro id hcontains
    unfold RevocationJournal.inForce
    dsimp only
    split
    · rfl
    rename_i hnew
    have hne : grantId ≠ id := by
      rintro rfl
      exact hnew hcontains
    cases outcome with
    | none => rfl
    | some => simp [getElem?_insert, hne]
  refine ⟨fun l hl => ?_, fun id r hr hpersisted => ?_, h.acknowledged, fun id hcontains => ?_,
    fun id r hr => ?_, fun id o ho => ?_⟩
  · obtain ⟨r, hr, hle, ho⟩ := h.entered l hl
    obtain ⟨r', hr', hle'⟩ := tombstones_le_inForce grantId retainUntilMs outcome hr
    exact ⟨r', hr', hle.trans hle', ho.trans (houtcomes _ (contains_iff.mpr ⟨r, hr⟩)).symm⟩
  · have hne : grantId ≠ id ∧ j.unpersisted.contains id = false := by
      simpa [RevocationJournal.inForce, Std.TreeSet.contains_insert] using hpersisted
    rcases htomb id r hr with hr | ⟨heq, -⟩
    · exact h.kept id r hr hne.2
    · exact absurd heq.symm hne.1
  · by_cases heq : id = grantId
    · subst heq
      exact contains_inForce outcome
    · rw [contains_eq_isSome_getElem?, tombstones_inForce_of_ne outcome heq,
        ← contains_eq_isSome_getElem?]
      apply h.outcomes
      unfold RevocationJournal.inForce at hcontains
      dsimp only at hcontains
      split at hcontains
      · exact hcontains
      · cases outcome with
        | none => exact hcontains
        | some => simpa [Std.TreeMap.contains_insert, Ne.symm heq] using hcontains
  · rcases htomb id r hr with hr | ⟨rfl, rfl⟩
    · exact h.tombstonesValid id r hr
    · exact ⟨hid, hpos⟩
  · unfold RevocationJournal.inForce at ho
    dsimp only at ho
    split at ho
    · exact h.outcomesValid id o ho
    cases outcome with
    | none => exact h.outcomesValid id o ho
    | some =>
      rw [Option.elim_some, getElem?_insert] at ho
      split at ho
      · cases ho
        exact hout _ rfl
      · exact h.outcomesValid id o ho

end Append

/-! ### One step -/

section Step

variable {j j' : RevocationJournal} {J A : List RevocationLine} {disk disk' : Disk}
  {result : Except String Unit}

theorem record_covers (h : Stored disk J A) (hj : Covers j J A)
    (hid : Fleet.isValidOpaqueId grantId = true) (hpos : retainUntilMs ≠ 0)
    (hout : ∀ o ∈ outcome, o.2 ≠ 0)
    (hruns : ((j.raisesRetention grantId retainUntilMs || j.unpersisted.contains grantId) &&
      (j.inForce grantId retainUntilMs outcome).appendRunsOn disk grantId io) = false)
    (hrecord : j.record disk grantId retainUntilMs outcome io = (j', disk', result)) :
    ∃ J' A', Stored disk' J' A' ∧ Covers j' J' A' := by
  unfold record at hrecord
  split at hrecord
  · cases hrecord
    exact ⟨J, A, h, hj⟩
  rename_i hwrites
  have hwrites' : (j.raisesRetention grantId retainUntilMs || j.unpersisted.contains grantId) =
      true := by
    cases hraises : j.raisesRetention grantId retainUntilMs <;> simp_all
  rw [hwrites', Bool.true_and] at hruns
  have hforce := hj.inForce hid hpos hout
  dsimp only at hrecord
  split at hrecord
  · rename_i happend
    cases hrecord
    obtain ⟨J', hstored, hcovers, -⟩ := append_covers h hforce hruns happend
    exact ⟨J', A, hstored, hcovers⟩
  · rename_i happend
    cases hrecord
    obtain ⟨J', hstored, -, hok⟩ := append_covers h hforce hruns happend
    exact ⟨J', A, hstored, (hok rfl).1⟩

/-- Only the first append of a retry may find an unterminated line. -/
theorem retryEach_covers {io : String → Slot.AppendIo} {ids : List String} (h : Stored disk J A)
    (hj : Covers j J A) (hruns : (ids.head?.any fun id => j.appendRunsOn disk id (io id)) = false)
    (hretry : retryEach io ids j disk = (j', disk', result)) :
    ∃ J' A', Stored disk' J' A' ∧ Covers j' J' A' := by
  induction ids generalizing j disk J with
  | nil =>
    cases hretry
    exact ⟨J, A, h, hj⟩
  | cons id rest ih =>
    unfold retryEach at hretry
    split at hretry
    · rename_i happend
      cases hretry
      obtain ⟨J', hstored, hcovers, -⟩ := append_covers h hj hruns happend
      exact ⟨J', A, hstored, hcovers⟩
    · rename_i disk₁ happend
      obtain ⟨J', hstored, -, hok⟩ := append_covers h hj hruns happend
      obtain ⟨hcovers, hwhole⟩ := hok rfl
      refine ih hstored hcovers ?_ hretry
      cases rest with
      | nil => rfl
      | cons => simp [appendRunsOn, runsOn, hwhole]

theorem acknowledge_covers (h : Stored disk J A) (hj : Covers j J A)
    (hruns : (j.outcomes.contains grantId && !j.acknowledgedOutcomes.contains grantId &&
      j.tombstones[grantId]?.any fun retainUntilMs =>
        runsOn disk.acknowledgements ⟨grantId, retainUntilMs, none⟩ io) = false)
    (hack : j.acknowledgeOutcome disk grantId io = (j', disk', result)) :
    ∃ J' A', Stored disk' J' A' ∧ Covers j' J' A' := by
  unfold acknowledgeOutcome at hack
  split at hack
  · cases hack
    exact ⟨J, A, h, hj⟩
  rename_i hopen
  rw [Bool.or_eq_true, not_or, Bool.not_eq_true, Bool.not_eq_false', Bool.not_eq_true] at hopen
  split at hack
  · cases hack
    exact ⟨J, A, h, hj⟩
  rename_i r hr
  have hruns' : runsOn disk.acknowledgements ⟨grantId, r, none⟩ io = false := by
    simpa [hopen.1, hopen.2, hr] using hruns
  obtain ⟨A', hlines, hA', hok⟩ := lines_append_of_not_runsOn h.acknowledgements hruns'
  have hfits := Slot.fits_append h.acknowledgementsFit ⟨grantId, r, none⟩ io
  obtain ⟨hid, hpos⟩ := hj.tombstonesValid grantId r hr
  have hplain : ∀ l ∈ A', l.isReadable = true ∧ l.outcome = none := by
    intro l hl
    have hold := h.acknowledgementsReadable l
    rcases hA' with rfl | rfl
    · exact hold hl
    rcases List.mem_append.mp hl with hl | hl
    · exact hold hl
    · rw [List.mem_singleton.mp hl]
      exact ⟨by simp [isReadable, hid, hpos], rfl⟩
  have hkept : ∀ l ∈ A, l ∈ A' := by
    intro l hl
    rcases hA' with rfl | rfl
    · exact hl
    · exact List.mem_append_left _ hl
  have hcovers : Covers j J A' :=
    { hj with
      acknowledged := fun id hid => by
        obtain ⟨l, hl, heq⟩ := hj.acknowledged id hid
        exact ⟨l, hkept l hl, heq⟩ }
  rcases happend : disk.acknowledgements.append RevocationLine.size grantJournalMaxBytes
    ⟨grantId, r, none⟩ io with ⟨slot, res⟩
  rw [happend] at hack hlines hfits hok
  have hstored : Stored { disk with acknowledgements := slot } J A' :=
    { h with
      acknowledgements := hlines
      acknowledgementsFit := hfits
      acknowledgementsReadable := hplain }
  cases res with
  | error =>
    cases hack
    exact ⟨J, A', hstored, hcovers⟩
  | ok =>
    cases hack
    refine ⟨J, A', hstored, { hcovers with acknowledged := fun id hid => ?_ }⟩
    rw [Std.TreeSet.contains_insert, Bool.or_eq_true] at hid
    rcases hid with hid | hid
    · obtain rfl : grantId = id := by simpa using hid
      rw [hok rfl]
      exact ⟨_, List.mem_append_right _ (.head _), rfl⟩
    · exact hcovers.acknowledged id hid

end Step

/-! ### Pruning -/

section Prune

variable {j j' : RevocationJournal} {J A : List RevocationLine} {disk disk' : Disk}
  {result : Except String Unit} {time : ℕ} {id : String} {r : ℕ}

theorem getElem?_retained : (j.retained time)[id]? = some r ↔
    j.tombstones[id]? = some r ∧ time < r := by
  simp [retained, Option.filter_eq_some_iff]

variable {kept : Std.TreeMap String ℕ}

variable {l : RevocationLine} {A' : List RevocationLine}

theorem mem_compactedLines : l ∈ j.compactedLines kept ↔
      kept[l.grantId]? = some l.retainUntilMs ∧ l.outcome = j.outcomes[l.grantId]? := by
  constructor
  · intro h
    obtain ⟨⟨id, r⟩, hmem, rfl⟩ := List.mem_map.mp h
    exact ⟨Std.TreeMap.mem_toList_iff_getElem?_eq_some.mp hmem, rfl⟩
  · rintro ⟨hkept, hout⟩
    refine List.mem_map.mpr ⟨(l.grantId, l.retainUntilMs),
      Std.TreeMap.mem_toList_iff_getElem?_eq_some.mpr hkept, ?_⟩
    dsimp only
    rw [← hout]

theorem mem_compactedAcknowledgements : l ∈ j.compactedAcknowledgements kept ↔
      j.acknowledgedOutcomes.contains l.grantId = true ∧
        kept[l.grantId]? = some l.retainUntilMs ∧ l.outcome = none := by
  unfold compactedAcknowledgements
  rw [List.mem_filterMap]
  constructor
  · rintro ⟨id, hid, hline⟩
    obtain ⟨r, hr, rfl⟩ := Option.map_eq_some_iff.mp hline
    exact ⟨by simpa using hid, hr, rfl⟩
  · rintro ⟨hack, hkept, hnone⟩
    refine ⟨l.grantId, by simpa using hack, ?_⟩
    rw [hkept, Option.map_some, ← hnone]

theorem exists_compactedAcknowledgement (hack : j.acknowledgedOutcomes.contains id = true)
    (hkept : kept.contains id = true) : ∃ l ∈ j.compactedAcknowledgements kept, l.grantId = id := by
  obtain ⟨r, hr⟩ := contains_iff.mp hkept
  exact ⟨⟨id, r, none⟩, mem_compactedAcknowledgements.mpr ⟨hack, hr, rfl⟩, rfl⟩

theorem length_ofLines_le {lines : List RevocationLine} (h : fitsFile lines = true) :
    (File.ofLines lines).length size ≤ grantJournalMaxBytes := by
  have hlength : (File.ofLines lines).length size = (lines.map size).sum := by
    rw [File.length, File.ofLines, List.map_map]
    rfl
  exact hlength.trans_le (of_decide_eq_true h)

/-- Files with the same content hold the same lines. -/
theorem Stored.congr (h : Stored disk J A) (hjournal : disk'.journal.file? = disk.journal.file?)
    (hacknowledgements : disk'.acknowledgements.file? = disk.acknowledgements.file?) :
    Stored disk' J A :=
  { h with
    journal := hjournal ▸ h.journal
    fits := fun f hf => h.fits f (hjournal ▸ hf)
    acknowledgements := hacknowledgements ▸ h.acknowledgements
    acknowledgementsFit := fun f hf => h.acknowledgementsFit f (hacknowledgements ▸ hf) }

theorem Stored.compactAcknowledgements (h : Stored disk J A) (hj : Covers j J A)
    (hfits : fitsFile (j.compactedAcknowledgements (j.retained time)) = true)
    (hfile : slot.file? = some (.ofLines (j.compactedAcknowledgements (j.retained time)))) :
    Stored { disk with acknowledgements := slot } J
      (j.compactedAcknowledgements (j.retained time)) := by
  refine { h with
    acknowledgements := by rw [hfile]; rfl,
    acknowledgementsReadable := fun l hl => ?_,
    acknowledgementsFit := fun f hf => ?_ }
  · obtain ⟨-, hkept, hnone⟩ := mem_compactedAcknowledgements.mp hl
    obtain ⟨hid, hpos⟩ := hj.tombstonesValid _ _ (getElem?_retained.mp hkept).1
    exact ⟨by simp [isReadable, hid, hpos, hnone], hnone⟩
  · obtain rfl := Option.mem_unique hfile hf
    exact length_ofLines_le hfits

/-- The journal after a compaction that was renamed. -/
theorem Stored.compact (h : Stored disk J A) (hj : Covers j J A')
    (hfits : fitsFile (j.compactedLines (j.retained time)) = true)
    (hsize : (j.retained time).size ≤ grantJournalMaxRecords)
    (hfile : slot.file? = some (.ofLines (j.compactedLines (j.retained time)))) :
    Stored { disk with journal := slot } (j.compactedLines (j.retained time)) A := by
  refine { h with
    journal := by rw [hfile]; rfl,
    readable := fun l hl => ?_,
    agreeing := fun l hl l' hl' hid => ?_,
    bounded := ?_,
    fits := fun f hf => ?_ }
  · obtain ⟨hkept, hout⟩ := mem_compactedLines.mp hl
    have hreadable := hj.isReadable_line (getElem?_retained.mp hkept).1
    rwa [← hout] at hreadable
  · rw [(mem_compactedLines.mp hl).2, (mem_compactedLines.mp hl').2, hid]
  · refine (Table.size_le_of_keys fun id hid => ?_).trans hsize
    obtain ⟨r, hr⟩ := contains_iff.mp hid
    obtain ⟨l, hl, rfl, -⟩ := exists_of_tombstones_storedBy hr
    exact contains_iff.mpr ⟨_, (mem_compactedLines.mp hl).1⟩
  · obtain rfl := Option.mem_unique hfile hf
    exact length_ofLines_le hfits

/-- The process after a pruning that succeeded is covered by the compacted files. -/
theorem Covers.pruned (h : Covers j J A')
    (hack : ∀ id, j.acknowledgedOutcomes.contains id = true → (j.retained time).contains id = true →
      ∃ l ∈ A, l.grantId = id) :
    Covers ⟨j.retained time, j.outcomes.filter fun id _ => (j.retained time).contains id,
      j.acknowledgedOutcomes.filter fun id => (j.retained time).contains id, ∅⟩
      (j.compactedLines (j.retained time)) A := by
  refine ⟨fun l hl => ?_, fun id r hr _ => ?_, fun id hid => ?_, fun id hid => ?_, fun id r hr => ?_,
    fun id o ho => ?_⟩
  · obtain ⟨hkept, hout⟩ := mem_compactedLines.mp hl
    refine ⟨l.retainUntilMs, hkept, le_rfl, ?_⟩
    have hall : ∀ o : Option (RevocationOutcome × ℕ), o.filter (fun _ => true) = o := by
      rintro (_ | o) <;> rfl
    simp [contains_iff.mpr ⟨_, hkept⟩, hout, hall]
  · exact ⟨⟨id, r, j.outcomes[id]?⟩, mem_compactedLines.mpr ⟨hr, rfl⟩, rfl, rfl⟩
  · rw [Std.TreeSet.contains_iff_mem, Std.TreeSet.mem_filter] at hid
    obtain ⟨hmem, hkept⟩ := hid
    rw [Std.TreeSet.get_eq] at hkept
    exact hack id (Std.TreeSet.contains_iff_mem.mpr hmem) hkept
  · dsimp only at hid ⊢
    obtain ⟨o, ho⟩ := contains_iff.mp hid
    rw [getElem?_filter', Option.filter_eq_some_iff] at ho
    exact ho.2
  · exact h.tombstonesValid id r (getElem?_retained.mp hr).1
  · apply h.outcomesValid id o
    rw [getElem?_filter', Option.filter_eq_some_iff] at ho
    exact ho.1

/-- All that a compaction of the acknowledgements does to the store, if it fits. -/
theorem compactAcknowledgements_covers (h : Stored disk J A) (hj : Covers j J A) {io : PruneIo}
    (hfits : j.replacesAcknowledgements disk io = true →
      fitsFile (j.compactedAcknowledgements (j.retained time)) = true)
    (hcompact : j.compactAcknowledgements disk.acknowledgements (j.retained time)
      io.acknowledgements = (slot, result)) :
    ∃ A', Stored { disk with acknowledgements := slot } J A' ∧
      ((j.replacesAcknowledgements disk io = false ∧ A' = A) ∨
        (j.replacesAcknowledgements disk io = true ∧
          A' = j.compactedAcknowledgements (j.retained time))) ∧
      (result = .ok () ↔ (j.skipsAcknowledgements disk ||
        io.acknowledgements.renames && io.acknowledgements.directory) = true) := by
  unfold compactAcknowledgements at hcompact
  by_cases hskip : j.skipsAcknowledgements disk = true
  · rw [if_pos (by simpa [skipsAcknowledgements] using hskip)] at hcompact
    cases hcompact
    exact ⟨A, h, .inl ⟨by simp [replacesAcknowledgements, hskip], rfl⟩, by simp [hskip]⟩
  · rw [if_neg (by simpa [skipsAcknowledgements] using hskip)] at hcompact
    have hreplaces : j.replacesAcknowledgements disk io = io.acknowledgements.renames := by
      simp [replacesAcknowledgements, hskip]
    have hfile := Slot.file?_replace_eq disk.acknowledgements
      (j.compactedAcknowledgements (j.retained time)) io.acknowledgements
    have hok := Slot.replace_eq_ok disk.acknowledgements
      (j.compactedAcknowledgements (j.retained time)) io.acknowledgements
    rcases hreplace : disk.acknowledgements.replace (j.compactedAcknowledgements (j.retained time))
      io.acknowledgements with ⟨slot₁, res⟩
    rw [hreplace] at hfile hok hcompact
    obtain ⟨rfl, hresult⟩ : slot₁ = slot ∧ (result = .ok () ↔ res = .ok ()) := by
      cases res with
      | error | ok =>
        cases hcompact
        exact ⟨rfl, by simp⟩
    have hiff : result = .ok () ↔ (j.skipsAcknowledgements disk ||
        io.acknowledgements.renames && io.acknowledgements.directory) = true := by
      rw [hresult, hok]
      simp [hskip]
    cases hrenames : io.acknowledgements.renames with
    | false =>
      rw [hrenames] at hreplaces hfile
      exact ⟨A, h.congr rfl hfile, .inl ⟨hreplaces, rfl⟩, hrenames ▸ hiff⟩
    | true =>
      rw [hrenames] at hreplaces hfile
      exact ⟨_, h.compactAcknowledgements hj (hfits hreplaces) hfile, .inr ⟨hreplaces, rfl⟩,
        hrenames ▸ hiff⟩

theorem prune_covers (h : Stored disk J A) (hj : Covers j J A) {io : PruneIo}
    (hbreaks : j.pruneBreaks disk time io = false)
    (hprune : j.prune disk time io = (j', disk', result)) :
    ∃ J' A', Stored disk' J' A' ∧ Covers j' J' A' := by
  unfold prune at hprune
  dsimp only at hprune
  split at hprune
  · cases hprune
    exact ⟨J, A, h, hj⟩
  rename_i hdrops
  -- what the condition says of a pruning that drops something
  have hcond : (j.replacesAcknowledgements disk io = true →
      fitsFile (j.compactedAcknowledgements (j.retained time)) = true ∧
        (j.replacesJournal disk io = false → ∀ id, j.acknowledgedOutcomes.contains id = true →
          (j.retained time).contains id = true)) ∧
      (j.replacesJournal disk io = true → io.journal.directory = true ∧
        fitsFile (j.compactedLines (j.retained time)) = true ∧
        (j.retained time).size ≤ grantJournalMaxRecords) := by
    have hne : ((j.retained time).size != j.tombstones.size) = true := by simpa using hdrops
    rw [pruneBreaks, hne, Bool.true_and, Bool.or_eq_false_iff] at hbreaks
    refine ⟨fun hreplaces => ?_, fun hreplaces => ?_⟩
    · rw [hreplaces, Bool.true_and, Bool.or_eq_false_iff] at hbreaks
      refine ⟨by simpa using hbreaks.1.1, fun hjournal id hid => ?_⟩
      have hall := hbreaks.1.2
      rw [hjournal, Bool.not_false, Bool.true_and, List.any_eq_false] at hall
      simpa using hall id (by simpa using hid)
    · rw [hreplaces, Bool.true_and, Bool.or_eq_false_iff, Bool.or_eq_false_iff] at hbreaks
      exact ⟨by simpa using hbreaks.2.1.1, by simpa using hbreaks.2.1.2,
        by simpa using hbreaks.2.2⟩
  rcases hcompact : j.compactAcknowledgements disk.acknowledgements (j.retained time)
    io.acknowledgements with ⟨slot, res⟩
  obtain ⟨A', hstored, hA', hok⟩ :=
    compactAcknowledgements_covers h hj (fun hreplaces => (hcond.1 hreplaces).1) hcompact
  -- the acknowledgements still cover a process that keeps its tombstones
  have hkeeps : j.replacesJournal disk io = false → Covers j J A' := by
    intro hjournal
    refine { hj with acknowledged := fun id hid => ?_ }
    rcases hA' with ⟨-, rfl⟩ | ⟨hreplaces, rfl⟩
    · exact hj.acknowledged id hid
    · exact exists_compactedAcknowledgement hid ((hcond.1 hreplaces).2 hjournal id hid)
  rw [hcompact] at hprune
  cases res with
  | error =>
    cases hprune
    have hstop : j.replacesJournal disk io = false := by
      rw [replacesJournal, Bool.eq_false_iff.mpr fun hgoes => absurd (hok.mpr hgoes) (by simp),
        Bool.false_and]
    exact ⟨J, A', hstored, hkeeps hstop⟩
  | ok =>
    have hgoes := hok.mp rfl
    have hreplaces : j.replacesJournal disk io = io.journal.renames := by
      rw [replacesJournal, hgoes, Bool.true_and]
    have hfile := Slot.file?_replace_eq disk.journal (j.compactedLines (j.retained time)) io.journal
    have hdone := Slot.replace_eq_ok disk.journal (j.compactedLines (j.retained time)) io.journal
    dsimp only at hprune
    split at hprune
    · -- the journal is as it was
      next slot₁ e hreplace =>
      rw [hreplace] at hfile hdone
      have hrenames : io.journal.renames = false := by
        rw [← hreplaces, Bool.eq_false_iff]
        intro hjournal
        cases hdone.mpr ⟨hreplaces ▸ hjournal, (hcond.2 hjournal).1⟩
      cases hprune
      rw [hrenames] at hreplaces hfile
      exact ⟨J, A', hstored.congr hfile rfl, hkeeps hreplaces⟩
    · next slot₁ hreplace =>
      rw [hreplace] at hfile hdone
      have hrenames := (hdone.mp rfl).1
      rw [hrenames] at hreplaces hfile
      obtain ⟨-, hfits, hsize⟩ := hcond.2 hreplaces
      cases hprune
      refine ⟨_, A', hstored.compact hj hfits hsize hfile, hj.pruned fun id hid hcontains => ?_⟩
      rcases hA' with ⟨-, rfl⟩ | ⟨-, rfl⟩
      · exact hj.acknowledged id hid
      · exact exists_compactedAcknowledgement hid hcontains

end Prune

/-! ### Runs -/

/-- The files hold lines that cover the process. -/
def RevocationStore.Sound (s : RevocationStore) : Prop :=
  ∃ J A, Stored s.disk J A ∧ ∀ j, s.journal = some j → Covers j J A

section Runs

variable {s : RevocationStore} {e : RevocationEvent}

theorem RevocationStore.call_sound {f : RevocationJournal → Disk →
      RevocationJournal × Disk × Except String Unit} (hs : s.Sound)
    (h : ∀ j J A j' disk' result, s.journal = some j → Stored s.disk J A → Covers j J A →
      f j s.disk = (j', disk', result) → ∃ J' A', Stored disk' J' A' ∧ Covers j' J' A') :
    (s.call f).1.Sound := by
  obtain ⟨J, A, hstored, hcovers⟩ := hs
  unfold call
  cases hj : s.journal with
  | none => exact ⟨J, A, hstored, fun j' hj' => hcovers j' hj'⟩
  | some j =>
    rcases hf : f j s.disk with ⟨j', disk', result⟩
    obtain ⟨J', A', hstored', hcovers'⟩ := h j J A j' disk' result hj hstored (hcovers j hj) hf
    simp only [hf]
    exact ⟨J', A', hstored', fun j'' hj'' => Option.some.inj hj'' ▸ hcovers'⟩

/-- A step that does not lose track of the files keeps memory and files together. -/
theorem covers_step (hs : s.Sound) (he : e.IsCall) (hbreaks : e.breaks s = false) :
    (s.step e).1.Sound := by
  cases e with
  | record | acknowledgeOutcome | retryUnpersisted | prune =>
    refine RevocationStore.call_sound hs fun j J A j' disk' result hj hstored hcovers hf => ?_
    rw [RevocationEvent.breaks, hj, Option.any_some] at hbreaks
    first
    | exact record_covers hstored hcovers he.1 he.2.1 he.2.2 hbreaks hf
    | exact acknowledge_covers hstored hcovers hbreaks hf
    | exact retryEach_covers hstored hcovers hbreaks hf
    | exact prune_covers hstored hcovers hbreaks hf
  | reopen io =>
    obtain ⟨J, A, hstored, -⟩ := hs
    obtain ⟨hstored', hloaded, -⟩ := hstored.open_spec io
    rw [RevocationStore.step]
    rcases hopen : RevocationJournal.open s.disk io with ⟨disk, result⟩
    rw [hopen] at hstored' hloaded
    cases result with
    | error => exact ⟨J, A, hstored', nofun⟩
    | ok j =>
      obtain rfl := hloaded j rfl
      refine ⟨J, A, hstored', ?_⟩
      rintro _ ⟨⟩
      exact .of_loaded hstored

variable {run : List (Transition RevocationStore RevocationEvent (Option (Except String Unit)))}

/-- In a run whose steps do not lose track of the files, they cover the process. -/
theorem sound_of_run (h : revocations.Run run s)
    (hrun : ∀ t ∈ run, t.event.breaks t.before = false) : s.Sound := by
  refine h.invariant_of (P := RevocationStore.Sound)
    (Q := fun t => t.event.breaks t.before = false) ?_ ?_ hrun
  · rintro s ⟨hnone, hdisk⟩
    refine ⟨[], [], ?_, fun j hj => absurd (hnone.symm.trans hj) nofun⟩
    rw [hdisk]
    exact ⟨rfl, rfl, nofun, nofun, nofun, by decide, nofun, nofun⟩
  · intro s e hs he hbreaks
    exact covers_step hs he hbreaks

/-- No step shortens a retention: a tombstone goes with a pruning at a time past it, or with a
restart if it is unpersisted. -/
theorem retention_step (hs : s.Sound) {j j' : RevocationJournal} (hj : s.journal = some j)
    (hj' : (s.step e).1.journal = some j') {id : String} {r : ℕ} (hr : j.tombstones[id]? = some r) :
    (∃ r', j'.tombstones[id]? = some r' ∧ r ≤ r') ∨
      (j'.tombstones[id]? = none ∧ ∃ time io, e = .prune time io ∧ r ≤ time) ∨
      (j.unpersisted.contains id = true ∧ ∃ io, e = .reopen io) := by
  have hcall : ∀ {f : RevocationJournal → Disk → RevocationJournal × Disk × Except String Unit},
      (s.call f).1.journal = some j' → ∃ disk' result, f j s.disk = (j', disk', result) := by
    intro f hf
    rw [RevocationStore.call, hj] at hf
    rcases hresult : f j s.disk with ⟨j₁, disk', result⟩
    simp only [hresult, Option.some.injEq] at hf
    subst hf
    exact ⟨disk', result, rfl⟩
  have hsame : j'.tombstones = j.tombstones → ∃ r', j'.tombstones[id]? = some r' ∧ r ≤ r' :=
    fun heq => ⟨r, heq ▸ hr, Nat.le_refl r⟩
  cases e with
  | record grantId retainUntilMs outcome =>
    obtain ⟨disk', result, hrecord⟩ := hcall hj'
    rcases record_cases hrecord with ⟨rfl, -⟩ | htomb
    · exact .inl (hsame rfl)
    · rw [htomb]
      exact .inl (tombstones_le_inForce grantId retainUntilMs outcome hr)
  | acknowledgeOutcome grantId io =>
    obtain ⟨disk', result, hack⟩ := hcall hj'
    have htomb := tombstones_acknowledgeOutcome j s.disk grantId io
    rw [hack] at htomb
    exact .inl (hsame htomb)
  | retryUnpersisted io =>
    obtain ⟨disk', result, hretry⟩ := hcall hj'
    have htomb := tombstones_retryEach io j.unpersisted.toList j s.disk
    rw [show retryEach io j.unpersisted.toList j s.disk = (j', disk', result) from hretry] at htomb
    exact .inl (hsame htomb)
  | prune time io =>
    obtain ⟨disk', result, hprune⟩ := hcall hj'
    rcases tombstones_prune hprune with htomb | htomb
    · exact .inl (hsame htomb)
    rw [htomb]
    by_cases hkept : time < r
    · exact .inl ⟨r, getElem?_retained.mpr ⟨hr, hkept⟩, Nat.le_refl r⟩
    refine .inr (.inl ⟨?_, time, io, rfl, not_lt.mp hkept⟩)
    rw [Option.eq_none_iff_forall_ne_some]
    intro r' hr'
    obtain ⟨hold, hlt⟩ := getElem?_retained.mp hr'
    obtain rfl := Option.mem_unique hr hold
    exact hkept hlt
  | reopen io =>
    cases hun : j.unpersisted.contains id with
    | true => exact .inr (.inr ⟨rfl, io, rfl⟩)
    | false =>
      -- a tombstone that is in the files comes back from them
      obtain ⟨J, A, hstored, hcovers⟩ := hs
      obtain ⟨-, hloaded, -⟩ := hstored.open_spec io
      rw [RevocationStore.step] at hj'
      rcases hopen : RevocationJournal.open s.disk io with ⟨disk, result⟩
      rw [hopen] at hj' hloaded
      cases result with
      | error => cases hj'
      | ok j₁ =>
        obtain rfl : j₁ = j' := Option.some.inj hj'
        have hback := (((hcovers j hj).loaded_eq hstored).1 id hun).1
        rw [← hloaded j₁ rfl] at hback
        exact .inl ⟨r, hback.trans hr, Nat.le_refl r⟩

/-- What a restart preserves of a process, and what its steps preserve of a tombstone. -/
structure DurableRevocations
    (run : List (Transition RevocationStore RevocationEvent (Option (Except String Unit))))
    (s : RevocationStore) : Prop where
  /-- The files can be opened, and give everything that is not unpersisted. -/
  reopened : ∀ j, s.journal = some j →
    ∃ disk j', RevocationJournal.open s.disk ⟨.clean, .clean⟩ = (disk, .ok j') ∧
      (∀ id, j.unpersisted.contains id = false →
        j'.tombstones[id]? = j.tombstones[id]? ∧ j'.outcomes[id]? = j.outcomes[id]?) ∧
      (∀ id, j.tombstones.contains id = true → j'.tombstones.contains id = false →
        j.unpersisted.contains id = true) ∧
      ∀ id, j.acknowledgedOutcomes.contains id = true → j'.outcomes.contains id = true →
        j'.acknowledgedOutcomes.contains id = true
  /-- A retention is never shortened, and a tombstone is removed by a pruning past it only, or
  lost by a restart if it is unpersisted. -/
  retention : ∀ t ∈ run, ∀ j j', t.before.journal = some j → t.after.journal = some j' →
    ∀ (id : String) (r : ℕ), j.tombstones[id]? = some r →
      (∃ r', j'.tombstones[id]? = some r' ∧ r ≤ r') ∨
        (j'.tombstones[id]? = none ∧ ∃ time io, t.event = .prune time io ∧ r ≤ time) ∨
        (j.unpersisted.contains id = true ∧ ∃ io, t.event = .reopen io)

/-- In every run whose steps do not lose track of the files, a restart loses only what is
unpersisted. -/
theorem revocations_durable (h : revocations.Run run s)
    (hrun : ∀ t ∈ run, t.event.breaks t.before = false) : DurableRevocations run s where
  reopened j hj := by
    obtain ⟨J, A, hstored, hcovers⟩ := sound_of_run h hrun
    obtain ⟨-, -, hclean⟩ := hstored.open_spec ⟨.clean, .clean⟩
    obtain ⟨hsame, hack⟩ := (hcovers j hj).loaded_eq hstored
    refine ⟨_, loaded J A, Prod.ext rfl (hclean rfl), hsame, fun id hin hout => ?_, hack⟩
    by_contra hpersisted
    have hback := (hsame id (Bool.eq_false_iff.mpr hpersisted)).1
    rw [contains_eq_isSome_getElem?] at hin hout
    rw [hback, hin] at hout
    cases hout
  retention t ht j j' hj hj' id r hr := by
    obtain ⟨before, after, rfl⟩ := List.append_of_mem ht
    obtain ⟨hprior, -, heq⟩ := h.split
    have hsound := sound_of_run hprior fun u hu => hrun u (List.mem_append_left _ hu)
    have hafter : t.after = (t.before.step t.event).1 := by
      rw [heq]
      rfl
    rw [hafter] at hj'
    exact retention_step hsound hj hj' hr

/-! ### Sample runs -/

/-- A new installation. -/
def noRevocations : RevocationStore := ⟨none, ⟨.absent, .absent⟩⟩

/-- The write stops after ten bytes, and the file cannot be cut back. -/
def tornAppend : Slot.AppendIo := { Slot.AppendIo.clean with write := some 10, cut := false }

/-- The flush fails, and the line is taken back. -/
def undoneAppend : Slot.AppendIo := { Slot.AppendIo.clean with sync := false }

theorem run_revocations {events : List RevocationEvent} (h : ∀ e ∈ events, e.IsCall) :
    revocations.Run (revocations.play noRevocations events).1
      (revocations.play noRevocations events).2 := by
  have hstart : revocations.Start noRevocations := ⟨rfl, rfl⟩
  exact Machine.run_play hstart (Machine.admitsAll_of fun e he _ => h e he)

/-- A revocation whose append fails is retried; its outcome is acknowledged, an older one is pruned,
and the process restarts. -/
def retriedEvents : List RevocationEvent :=
  [.reopen ⟨.clean, .clean⟩, .record "gr_1" 100 (some (.notReceived, 1)) .clean,
    .record "gr_2" 200 (some (.notReceived, 2)) undoneAppend,
    .retryUnpersisted fun _ => .clean, .acknowledgeOutcome "gr_2" .clean, .prune 150 .clean,
    .reopen ⟨.clean, .clean⟩]

theorem revocations_durable_retried : (∀ t ∈ (revocations.play noRevocations retriedEvents).1,
      t.event.breaks t.before = false) ∧
    ((revocations.play noRevocations retriedEvents).2.journal.any fun j =>
      j.acknowledgedOutcomes.contains "gr_2") = true ∧
    DurableRevocations (revocations.play noRevocations retriedEvents).1
      (revocations.play noRevocations retriedEvents).2 := by
  have hkeeps : ∀ t ∈ (revocations.play noRevocations retriedEvents).1,
      t.event.breaks t.before = false := by decide +kernel
  refine ⟨hkeeps, by decide +kernel, revocations_durable (run_revocations ?_) hkeeps⟩
  simp [retriedEvents, RevocationEvent.IsCall]
  decide

/-- The append of a first revocation stops half way, and a second one is recorded. -/
def tornEvents : List RevocationEvent :=
  [.reopen ⟨.clean, .clean⟩, .record "gr_1" 100 none tornAppend, .record "gr_2" 200 none .clean]

/-- The second revocation succeeded and counts as persisted, and the file cannot be opened. -/
theorem revocation_lost : revocations.Run (revocations.play noRevocations tornEvents).1
        (revocations.play noRevocations tornEvents).2 ∧
      ((revocations.play noRevocations tornEvents).2.journal.any fun j =>
        j.tombstones.contains "gr_2" && !j.unpersisted.contains "gr_2") = true ∧
      ∀ j', (RevocationJournal.open (revocations.play noRevocations tornEvents).2.disk
        ⟨.clean, .clean⟩).2 ≠ .ok j' := by
  refine ⟨run_revocations ?_, by decide +kernel, fun j' hopen => ?_⟩
  · simp [tornEvents, RevocationEvent.IsCall]
    decide
  have hfails : (RevocationJournal.open (revocations.play noRevocations tornEvents).2.disk
      ⟨.clean, .clean⟩).2.isOk = false := by decide +kernel
  rw [hopen] at hfails
  cases hfails

end Runs

end BlindPass.Broker
