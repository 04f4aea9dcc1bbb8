import BlindPass.Broker.GrantJournal

/-!
# The revocation journal

A revocation leaves a tombstone that outlives the grant. The tombstone is in force from
the moment it is in memory; the append that makes it durable may fail and is retried, and
until then the grant counts as unpersisted. The first observed outcome is kept with the
tombstone until the controller acknowledges it, in a second file.
-/

namespace BlindPass.Broker

open Storage (Slot)

/-- What applying a revocation changed for its grant. -/
inductive RevocationOutcome
  | revokedBeforeConsumption
  | alreadyConsumed
  | notReceived
  deriving DecidableEq

/-- The word for the outcome in the journal. -/
def RevocationOutcome.text : RevocationOutcome → String
  | .revokedBeforeConsumption => "revoked_before_consumption"
  | .alreadyConsumed => "already_consumed"
  | .notReceived => "not_received"

/-- A line of either file; acknowledgements carry no outcome. -/
structure RevocationLine where
  grantId : String
  retainUntilMs : ℕ
  outcome : Option (RevocationOutcome × ℕ)
  deriving DecidableEq

namespace RevocationLine

/-- `revocation_line`, without its newline. -/
def text (line : RevocationLine) : String :=
  let outcomeField := line.outcome.elim "" fun (outcome, observedAtMs) =>
    ",\"outcome\":\"" ++ outcome.text ++ "\",\"observed_at_ms\":" ++ toString observedAtMs
  "\x7b\"grant_id\":\"" ++ line.grantId ++ "\",\"retain_until_ms\":" ++
    toString line.retainUntilMs ++ outcomeField ++ "\x7d"

/-- The bytes of the line, its newline included. -/
def size (line : RevocationLine) : ℕ := line.text.utf8ByteSize + 1

/-- `parse_revocation_line` accepts the line: a zero time is not a time. -/
def isReadable (line : RevocationLine) : Bool :=
  Fleet.isValidOpaqueId line.grantId && line.retainUntilMs != 0 &&
    line.outcome.all fun (_, observedAtMs) => observedAtMs != 0

end RevocationLine

/-- The journal in memory. -/
structure RevocationJournal where
  tombstones : Std.TreeMap String ℕ
  outcomes : Std.TreeMap String (RevocationOutcome × ℕ)
  acknowledgedOutcomes : Std.TreeSet String
  unpersisted : Std.TreeSet String

namespace RevocationJournal

/-- The journal of a path that names nothing. -/
def empty : RevocationJournal := ⟨∅, ∅, ∅, ∅⟩

/-! ### Reading -/

/-- A tombstone entered from its line: the longest retention and the first outcome count. -/
def readLine (j : RevocationJournal) (line : RevocationLine) : RevocationJournal :=
  { j with
    tombstones := j.tombstones.insert line.grantId
      (max (j.tombstones[line.grantId]?.getD 0) line.retainUntilMs)
    outcomes := match line.outcome with
      | none => j.outcomes
      | some outcome => j.outcomes.insertIfNew line.grantId outcome }

/-- The lines of the journal file, read into `j`. -/
def readTombstones : List (Option RevocationLine) → RevocationJournal →
    Except String RevocationJournal
  | [], j => .ok j
  | none :: _, _ => .error "grant revocation record is malformed"
  | some line :: rest, j =>
    if !line.isReadable then .error "grant revocation record is malformed"
    else readTombstones rest (j.readLine line)

/-- The lines of the acknowledgement file, read into `j`. -/
def readAcknowledgements : List (Option RevocationLine) → RevocationJournal →
    Except String RevocationJournal
  | [], j => .ok j
  | none :: _, _ => .error "grant revocation record is malformed"
  | some line :: rest, j =>
    if !line.isReadable then .error "grant revocation record is malformed"
    else if line.outcome.isSome then .error "grant revocation acknowledgement is malformed"
    else
      readAcknowledgements rest { j with
        acknowledgedOutcomes :=
          if j.outcomes.contains line.grantId then j.acknowledgedOutcomes.insert line.grantId
          else j.acknowledgedOutcomes }

/-- The error a failed read of the journal is reported as. -/
def readErrorText : Slot.ReadError → String
  | .open => "grant revocation journal could not be opened safely"
  | .metadata => "grant revocation journal metadata is unavailable"
  | .size => "grant revocation journal exceeds its configured size bound"
  | .read => "grant revocation journal could not be read"
  | .refused => ""
  | .cut => "grant revocation journal torn record could not be truncated"

/-- The error a failed read of the acknowledgements is reported as. -/
def acknowledgementReadErrorText : Slot.ReadError → String
  | .open => "grant revocation acknowledgements could not be opened safely"
  | .metadata => "grant revocation acknowledgement metadata is unavailable"
  | .size => "grant revocation acknowledgements exceed their size bound"
  | .read => "grant revocation acknowledgements could not be read"
  | .refused => ""
  | .cut => "grant revocation acknowledgement torn record could not be truncated"

/-- Read a file through one of the two line readers. -/
def readFile (errorText : Slot.ReadError → String)
    (readLines : List (Option RevocationLine) → RevocationJournal → Except String RevocationJournal)
    (j : RevocationJournal) (slot : Slot RevocationLine) (io : Slot.ReadIo) :
    Slot RevocationLine × Except String RevocationJournal :=
  match slot.read RevocationLine.size grantJournalMaxBytes (fun _ => true) io with
  | (slot, .error e) => (slot, .error (errorText e))
  | (slot, .ok none) => (slot, .ok j)
  | (slot, .ok (some lines)) => (slot, readLines lines j)

/-- The two paths of the journal. -/
structure Disk where
  journal : Slot RevocationLine
  acknowledgements : Slot RevocationLine
  deriving DecidableEq

/-- The outcome of every system call of `open`. -/
structure OpenIo where
  journal : Slot.ReadIo
  acknowledgements : Slot.ReadIo
  deriving DecidableEq

/-- `open` -/
def «open» (disk : Disk) (io : OpenIo) : Disk × Except String RevocationJournal :=
  match readFile readErrorText readTombstones empty disk.journal io.journal with
  | (slot, .error e) => ({ disk with journal := slot }, .error e)
  | (slot, .ok j) =>
    if grantJournalMaxRecords < j.tombstones.size then
      ({ disk with journal := slot },
        .error "grant revocation journal exceeds its record bound")
    else
      let (acknowledgements, result) := readFile acknowledgementReadErrorText readAcknowledgements j
        disk.acknowledgements io.acknowledgements
      (⟨slot, acknowledgements⟩, result)

/-! ### Recording a revocation -/

/-- The error a failed append is reported as. -/
def appendErrorText : Slot.AppendError → String
  | .inspect => "grant revocation journal could not be inspected safely"
  | .create => "grant revocation journal could not be opened for append"
  | .metadata => "grant revocation journal metadata is unavailable"
  | .full => "grant revocation journal is full; tombstone is not durable"
  | .flush => "grant revocation tombstone could not be flushed"
  | .directory => "grant revocation journal directory could not be synchronized"

def append (j : RevocationJournal) (disk : Disk) (grantId : String) (io : Slot.AppendIo) :
    Disk × Except String Unit :=
  match j.tombstones[grantId]? with
  | none => (disk, .error "grant revocation tombstone is unavailable")
  | some retainUntilMs =>
    if grantJournalMaxRecords < j.tombstones.size then
      (disk, .error "grant revocation journal is full; tombstone is not durable")
    else
      match disk.journal.append RevocationLine.size grantJournalMaxBytes
          ⟨grantId, retainUntilMs, j.outcomes[grantId]?⟩ io with
      | (slot, .error e) => ({ disk with journal := slot }, .error (appendErrorText e))
      | (slot, .ok ()) => ({ disk with journal := slot }, .ok ())

/-- The revocation raises the retention of its tombstone, or is the first. -/
def raisesRetention (j : RevocationJournal) (grantId : String) (retainUntilMs : ℕ) : Bool :=
  j.tombstones[grantId]?.all fun existing => existing < retainUntilMs

/-- The tombstone in force in memory, before anything is written. -/
def inForce (j : RevocationJournal) (grantId : String) (retainUntilMs : ℕ)
    (outcome : Option (RevocationOutcome × ℕ)) : RevocationJournal :=
  { j with
    outcomes := if j.tombstones.contains grantId then j.outcomes else
      outcome.elim j.outcomes fun o => j.outcomes.insert grantId o
    tombstones := if j.raisesRetention grantId retainUntilMs then
      j.tombstones.insert grantId retainUntilMs else j.tombstones
    unpersisted := j.unpersisted.insert grantId }

def record (j : RevocationJournal) (disk : Disk) (grantId : String) (retainUntilMs : ℕ)
    (outcome : Option (RevocationOutcome × ℕ)) (io : Slot.AppendIo) :
    RevocationJournal × Disk × Except String Unit :=
  if !j.raisesRetention grantId retainUntilMs && !j.unpersisted.contains grantId then
    (j, disk, .ok ())
  else
    let j := j.inForce grantId retainUntilMs outcome
    match j.append disk grantId io with
    | (disk, .error e) => (j, disk, .error e)
    | (disk, .ok ()) => ({ j with unpersisted := j.unpersisted.erase grantId }, disk, .ok ())

/-- Append the tombstones of `ids`, stopping at the first failure. -/
def retryEach (io : String → Slot.AppendIo) :
    List String → RevocationJournal → Disk → RevocationJournal × Disk × Except String Unit
  | [], j, disk => (j, disk, .ok ())
  | id :: rest, j, disk =>
    match j.append disk id (io id) with
    | (disk, .error e) => (j, disk, .error e)
    | (disk, .ok ()) => retryEach io rest { j with unpersisted := j.unpersisted.erase id } disk

def retryUnpersisted (j : RevocationJournal) (disk : Disk) (io : String → Slot.AppendIo) :
    RevocationJournal × Disk × Except String Unit :=
  retryEach io j.unpersisted.toList j disk

/-! ### Acknowledged outcomes -/

/-- The error a failed append to the acknowledgements is reported as. -/
def acknowledgementErrorText : Slot.AppendError → String
  | .inspect => "grant revocation acknowledgements could not be inspected"
  | .create => "grant revocation acknowledgements could not be opened"
  | .metadata => "grant revocation acknowledgement metadata is unavailable"
  | .full => "grant revocation acknowledgements are full"
  | .flush => "grant revocation acknowledgement could not be flushed"
  | .directory => "grant revocation acknowledgement directory could not be synchronized"

def acknowledgeOutcome (j : RevocationJournal) (disk : Disk) (grantId : String)
    (io : Slot.AppendIo) : RevocationJournal × Disk × Except String Unit :=
  if !j.outcomes.contains grantId || j.acknowledgedOutcomes.contains grantId then (j, disk, .ok ())
  else
    match j.tombstones[grantId]? with
    | none => (j, disk, .error "grant revocation tombstone is unavailable")
    | some retainUntilMs =>
      match disk.acknowledgements.append RevocationLine.size grantJournalMaxBytes
          ⟨grantId, retainUntilMs, none⟩ io with
      | (slot, .error e) =>
        (j, { disk with acknowledgements := slot }, .error (acknowledgementErrorText e))
      | (slot, .ok ()) =>
        ({ j with acknowledgedOutcomes := j.acknowledgedOutcomes.insert grantId },
          { disk with acknowledgements := slot }, .ok ())

/-! ### Pruning -/

/-- The outcome of every system call of a pruning. -/
structure PruneIo where
  acknowledgements : Slot.ReplaceIo
  journal : Slot.ReplaceIo
  deriving DecidableEq

/-- Every call succeeds. -/
def PruneIo.clean : PruneIo := ⟨.clean, .clean⟩

/-- The error a failed compaction of the acknowledgements is reported as. -/
def acknowledgementReplaceErrorText : Slot.ReplaceError → String
  | .create => "grant revocation acknowledgement compaction could not start"
  | .write => "grant revocation acknowledgement compaction could not be written"
  | .commit => "grant revocation acknowledgement compaction could not be committed"
  | .directory => "grant revocation acknowledgement directory could not be synchronized"

/-- The tombstones that a pruning keeps. -/
def retained (j : RevocationJournal) (authenticatedTimeMs : ℕ) : Std.TreeMap String ℕ :=
  j.tombstones.filter fun _ retainUntilMs => authenticatedTimeMs < retainUntilMs

/-- The lines of the compacted journal. -/
def compactedLines (j : RevocationJournal) (retained : Std.TreeMap String ℕ) : List RevocationLine :=
  retained.toList.map fun (id, retainUntilMs) => ⟨id, retainUntilMs, j.outcomes[id]?⟩

/-- The lines of the compacted acknowledgements. -/
def compactedAcknowledgements (j : RevocationJournal) (retained : Std.TreeMap String ℕ) :
    List RevocationLine :=
  j.acknowledgedOutcomes.toList.filterMap fun id =>
    retained[id]?.map fun retainUntilMs => ⟨id, retainUntilMs, none⟩

def compactAcknowledgements (j : RevocationJournal) (slot : Slot RevocationLine)
    (retained : Std.TreeMap String ℕ) (io : Slot.ReplaceIo) :
    Slot RevocationLine × Except String Unit :=
  if j.acknowledgedOutcomes.isEmpty && slot.file?.isNone then (slot, .ok ())
  else
    match slot.replace (j.compactedAcknowledgements retained) io with
    | (slot, .error e) => (slot, .error (acknowledgementReplaceErrorText e))
    | (slot, .ok ()) => (slot, .ok ())

/-- The error a failed compaction is reported as. -/
def replaceErrorText : Slot.ReplaceError → String
  | .create => "grant revocation compaction file could not be created"
  | .write => "grant revocation compaction could not be written"
  | .commit => "grant revocation compaction could not be committed"
  | .directory => "grant revocation directory could not be synchronized"

def prune (j : RevocationJournal) (disk : Disk) (authenticatedTimeMs : ℕ) (io : PruneIo) :
    RevocationJournal × Disk × Except String Unit :=
  let pruned := j.retained authenticatedTimeMs
  if pruned.size = j.tombstones.size then (j, disk, .ok ())
  else
    match j.compactAcknowledgements disk.acknowledgements pruned io.acknowledgements with
    | (slot, .error e) => (j, { disk with acknowledgements := slot }, .error e)
    | (acknowledgements, .ok ()) =>
      match disk.journal.replace (j.compactedLines pruned) io.journal with
      | (slot, .error e) => (j, ⟨slot, acknowledgements⟩, .error (replaceErrorText e))
      | (slot, .ok ()) =>
        -- the compacted file holds every retained tombstone, so none is unpersisted
        ({ tombstones := pruned
           outcomes := j.outcomes.filter fun id _ => pruned.contains id
           acknowledgedOutcomes := j.acknowledgedOutcomes.filter fun id => pruned.contains id
           unpersisted := ∅ }, ⟨slot, acknowledgements⟩, .ok ())

/-! ### Tombstones -/

variable {j j' : RevocationJournal} {disk disk' : Disk} {id grantId : String} {retainUntilMs : ℕ}
  {r : Except String Unit}

theorem contains_inForce (outcome : Option (RevocationOutcome × ℕ)) :
    (j.inForce grantId retainUntilMs outcome).tombstones.contains grantId = true := by
  unfold inForce
  split
  · simp
  rename_i hraises
  rw [Std.TreeMap.contains_eq_isSome_getElem?]
  by_contra hnone
  exact hraises (by simp [raisesRetention, Option.not_isSome_iff_eq_none.mp hnone])

theorem tombstones_inForce_of_ne (outcome : Option (RevocationOutcome × ℕ)) (h : id ≠ grantId) :
    (j.inForce grantId retainUntilMs outcome).tombstones[id]? = j.tombstones[id]? := by
  unfold inForce
  split
  · simp [Std.TreeMap.getElem?_insert, h.symm]
  · rfl

variable {io : Slot.AppendIo} {outcome : Option (RevocationOutcome × ℕ)}

/-- All that `record` does to the journal in memory: nothing when the tombstone is already
in force and persisted, and otherwise put it in force before writing. -/
theorem record_cases (h : j.record disk grantId retainUntilMs outcome io = (j', disk', r)) :
    (j' = j ∧ j.raisesRetention grantId retainUntilMs = false) ∨
      j'.tombstones = (j.inForce grantId retainUntilMs outcome).tombstones := by
  unfold record at h
  split at h
  · rename_i hquiet
    cases h
    exact .inl ⟨rfl, by simp_all⟩
  dsimp only at h
  split at h <;> cases h <;> exact .inr rfl

/-- A revocation puts its tombstone in force, even when the append fails, and touches no
other. -/
theorem tombstones_record (h : j.record disk grantId retainUntilMs outcome io = (j', disk', r)) :
    j'.tombstones.contains grantId = true ∧
      ∀ id, id ≠ grantId → j'.tombstones[id]? = j.tombstones[id]? := by
  rcases record_cases h with ⟨rfl, hraises⟩ | htombs
  · refine ⟨?_, fun _ _ => rfl⟩
    rw [Std.TreeMap.contains_eq_isSome_getElem?]
    by_contra hnone
    rw [raisesRetention, Option.not_isSome_iff_eq_none.mp hnone] at hraises
    simp at hraises
  · rw [htombs]
    exact ⟨contains_inForce outcome, fun id hid => tombstones_inForce_of_ne outcome hid⟩

theorem tombstones_retryEach (io : String → Slot.AppendIo) (ids : List String)
    (j : RevocationJournal) (disk : Disk) :
    (retryEach io ids j disk).1.tombstones = j.tombstones := by
  induction ids generalizing j disk with
  | nil => rfl
  | cons id rest ih =>
    unfold retryEach
    split
    · rfl
    · rw [ih]

theorem tombstones_acknowledgeOutcome (j : RevocationJournal) (disk : Disk) (grantId : String)
    (io : Slot.AppendIo) : (j.acknowledgeOutcome disk grantId io).1.tombstones = j.tombstones := by
  unfold acknowledgeOutcome
  split
  · rfl
  split
  · rfl
  split <;> rfl

/-- Pruning drops a tombstone only when its retention has passed. -/
theorem tombstones_prune {authenticatedTimeMs : ℕ} {io : PruneIo}
    (h : j.prune disk authenticatedTimeMs io = (j', disk', r)) :
    j'.tombstones = j.tombstones ∨ j'.tombstones =
      j.tombstones.filter fun _ retainUntilMs => authenticatedTimeMs < retainUntilMs := by
  unfold prune at h
  dsimp only at h
  iterate 3
    split at h
    · cases h
      exact .inl rfl
  · cases h
    exact .inr rfl

end RevocationJournal

end BlindPass.Broker
