import BlindPass.Library.Storage
import BlindPass.Library.U64
import BlindPass.Fleet.Documents

/-!
# The consumption journal

A grant is good for one use. The broker appends a record of the use to a journal, and
flushes it, before it releases anything; a record stays until a day after the grant's
expiry. The journal may start with a history header, which binds it to one controller
scope and says how far it has been pruned.

The functions take the outcome of every system call they make, and return the journal in
memory, the path on disk and their result separately: a call that fails half way has
changed the first two.
-/

namespace BlindPass.Broker

open Storage (Slot)

def grantJournalMaxBytes : ℕ := 64 * 1024 * 1024

def grantJournalMaxRecords : ℕ := 1000000

def grantReplayRetentionMs : ℕ := 24 * 60 * 60 * 1000

/-- What a consumption record says beyond the grant's id and expiry. -/
structure ConsumedBinding where
  operationId : String
  issuerEpoch : ℕ
  deriving DecidableEq

/-- The header of a journal that began with this broker's identity. -/
structure ConsumptionHistory where
  historyId : String
  tenantId : String
  nodeId : String
  issuerKeyId : String
  prunedThroughMs : ℕ
  highestIssuerEpoch : ℕ
  deriving DecidableEq

namespace ConsumptionHistory

/-- The header names a controller scope. -/
def isBound (h : ConsumptionHistory) : Bool := !h.tenantId.isEmpty

def sameScope (h other : ConsumptionHistory) : Bool :=
  h.tenantId == other.tenantId && h.nodeId == other.nodeId && h.issuerKeyId == other.issuerKeyId

/-- The header can be written: the checks `line` makes on everything but the random id. -/
def isWritable (h : ConsumptionHistory) : Bool :=
  let scope := [h.tenantId, h.nodeId, h.issuerKeyId]
  (scope.all String.isEmpty || scope.all Fleet.isValidOpaqueId) &&
    h.prunedThroughMs ≤ Fleet.maxSafeInteger && h.highestIssuerEpoch ≤ Fleet.maxSafeInteger &&
    !(h.isBound && h.highestIssuerEpoch == 0) &&
    !(!h.isBound && (h.prunedThroughMs != 0 || h.highestIssuerEpoch != 0))

/-- The header's line, without its newline. -/
def line (h : ConsumptionHistory) : String :=
  "\x7b\"history_version\":1,\"history_id\":\"" ++ h.historyId ++ "\",\"tenant_id\":\"" ++
    h.tenantId ++ "\",\"node_id\":\"" ++ h.nodeId ++ "\",\"issuer_key_id\":\"" ++ h.issuerKeyId ++
    "\",\"pruned_through_ms\":" ++ toString h.prunedThroughMs ++ ",\"highest_issuer_epoch\":" ++
    toString h.highestIssuerEpoch ++ "\x7d"

end ConsumptionHistory

/-- `consumption_line`, without its newline. -/
def consumptionLine (grantId : String) (expiresAtMs : ℕ) (binding : Option ConsumedBinding) :
    String :=
  let correlation := binding.elim "" fun b =>
    ",\"operation_id\":\"" ++ b.operationId ++ "\",\"issuer_epoch\":" ++ toString b.issuerEpoch
  "\x7b\"grant_id\":\"" ++ grantId ++ "\",\"expires_at_ms\":" ++ toString expiresAtMs ++
    correlation ++ "\x7d"

/-- A line the broker writes to its journal. -/
inductive JournalLine
  | history (header : ConsumptionHistory)
  | consumption (grantId : String) (expiresAtMs : ℕ) (binding : Option ConsumedBinding)
  deriving DecidableEq

/-- The bytes of a line, its newline included. -/
def JournalLine.size : JournalLine → ℕ
  | .history header => header.line.utf8ByteSize + 1
  | .consumption grantId expiresAtMs binding =>
    (consumptionLine grantId expiresAtMs binding).utf8ByteSize + 1

/-- The line is a history header. -/
def JournalLine.isHistory : JournalLine → Bool
  | .history _ => true
  | .consumption .. => false

/-- The journal in memory. `revision` identifies the file contents it was read from. -/
structure GrantJournal where
  consumed : Std.TreeMap String ℕ
  bindings : Std.TreeMap String ConsumedBinding
  history : Option ConsumptionHistory
  revision : Option ℕ

namespace GrantJournal

/-- The journal of a path that names nothing. -/
def empty : GrantJournal := ⟨∅, ∅, none, none⟩

/-- Enter a consumption into the maps. -/
def enter (j : GrantJournal) (grantId : String) (expiresAtMs : ℕ)
    (binding : Option ConsumedBinding) : GrantJournal :=
  let j := { j with consumed := j.consumed.insert grantId expiresAtMs }
  match binding with
  | none => j
  | some b =>
    { j with
      history := j.history.map fun h =>
        { h with highestIssuerEpoch := max h.highestIssuerEpoch b.issuerEpoch }
      bindings := j.bindings.insert grantId b }

/-! ### Reading -/

/-- The lines of the file, read into `j` from line number `index` on. -/
def readLines (index : ℕ) : List (Option JournalLine) → GrantJournal → Except String GrantJournal
  | [], j => .ok j
  | none :: _, _ => .error "grant journal record is malformed"
  | some (.history header) :: rest, j =>
    if index ≠ 0 ∨ j.history.isSome then
      .error "grant history header is misplaced or duplicated"
    else readLines (index + 1) rest { j with history := some header }
  | some (.consumption grantId expiresAtMs binding) :: rest, j =>
    match j.consumed[grantId]? with
    | some existing =>
      if existing ≠ expiresAtMs ∨ j.bindings[grantId]? ≠ binding then
        .error "grant journal contains a conflicting replay record"
      else readLines (index + 1) rest j
    | none => readLines (index + 1) rest (j.enter grantId expiresAtMs binding)

/-- A header anywhere but on the first line. -/
def historyMisplaced (lines : List (Option JournalLine)) : Bool :=
  (lines.any fun l => l.any JournalLine.isHistory) &&
    !(lines.head?.any fun l => l.any JournalLine.isHistory)

/-- The error a failed read is reported as. -/
def readErrorText : Slot.ReadError → String
  | .open => "grant journal could not be opened safely"
  | .metadata => "grant journal metadata is unavailable"
  | .size => "grant journal exceeds its configured size bound"
  | .read => "grant journal could not be read"
  | .refused => "grant history is misplaced or its header is torn"
  | .cut => "grant journal torn record could not be truncated"

/-- The outcome of every system call of `read_locked`. -/
structure ReadIo where
  file : Slot.ReadIo
  stat : Bool
  deriving DecidableEq

/-- Every call succeeds. -/
def ReadIo.clean : ReadIo := ⟨.clean, true⟩

def readLocked (slot : Slot JournalLine) (io : ReadIo) :
    Slot JournalLine × Except String GrantJournal :=
  match slot.read JournalLine.size grantJournalMaxBytes (fun lines => !historyMisplaced lines)
      io.file with
  | (slot, .error e) => (slot, .error (readErrorText e))
  | (slot, .ok none) => (slot, .ok empty)
  | (slot, .ok (some lines)) =>
    match readLines 0 lines empty with
    | .error e => (slot, .error e)
    | .ok j =>
      if grantJournalMaxRecords < j.consumed.size then
        (slot, .error "grant journal exceeds its record bound")
      else if (j.history.any fun h => !h.isBound) && !j.consumed.isEmpty then
        (slot, .error "unbound grant history contains consumption records")
      else if !io.stat then (slot, .error "grant journal metadata is unavailable")
      else (slot, .ok { j with revision := some slot.stamp })

/-- The outcome of every system call of a synchronisation. -/
structure SyncIo where
  «open» : Bool
  stat : Bool
  read : ReadIo
  deriving DecidableEq

/-- Every call succeeds. -/
def SyncIo.clean : SyncIo := ⟨true, true, .clean⟩

/-- The checks on a journal read again by a process that already held one: the same
history, pruned no less, and no record lost that pruning does not explain. -/
def succeededBy (j current : GrantJournal) : Except String GrantJournal :=
  match j.history with
  | none => .ok current
  | some previous =>
    match current.history with
    | none => .error "grant history provenance disappeared"
    | some h =>
      if h.historyId ≠ previous.historyId ∨ h.prunedThroughMs < previous.prunedThroughMs ∨
          (previous.isBound && !h.sameScope previous) then
        .error "grant history identity or coverage changed"
      else if j.consumed.toList.any fun (id, expiresAtMs) =>
          h.prunedThroughMs < expiresAtMs && current.consumed[id]? != some expiresAtMs then
        .error "grant history lost consumption records"
      else
        .ok { current with
          history := some { h with
            highestIssuerEpoch := max h.highestIssuerEpoch previous.highestIssuerEpoch } }

/-- `synchronize`: read the file again unless it is the one the journal was read from. -/
def synchronize (j : GrantJournal) (slot : Slot JournalLine) (io : SyncIo) :
    Slot JournalLine × Except String GrantJournal :=
  if !io.open then (slot, .error "grant history is unavailable")
  else
    match slot.file? with
    | none =>
      if j.revision.isNone then (slot, .ok j) else (slot, .error "grant history is unavailable")
    | some _ =>
      if !io.stat then (slot, .error "grant journal metadata is unavailable")
      else if j.revision = some slot.stamp then (slot, .ok j)
      else
        match readLocked slot io.read with
        | (slot, .error e) => (slot, .error e)
        | (slot, .ok current) => (slot, j.succeededBy current)

/-! ### Recording a consumption -/

/-- The outcome of every system call of a record. -/
structure RecordIo where
  lock : Bool
  sync : SyncIo
  append : Slot.AppendIo
  stat : Bool
  deriving DecidableEq

/-- Every call succeeds. -/
def RecordIo.clean : RecordIo := ⟨true, .clean, .clean, true⟩

/-- The error a failed append is reported as. -/
def appendErrorText : Slot.AppendError → String
  | .inspect => "grant journal could not be inspected safely"
  | .create => "grant journal could not be opened for durable append"
  | .metadata => "grant journal metadata is unavailable"
  | .full => "grant journal is full; new grant consumption is denied"
  | .flush => "grant consumption intent could not be flushed"
  | .directory => "grant journal directory could not be synchronized"

/-- The checks `record` makes on the synchronised journal before it writes. -/
def refusal? (j : GrantJournal) (grantId : String) (expiresAtMs : ℕ)
    (binding : Option ConsumedBinding) (nodeId : Option String) : Option String :=
  if j.history.any fun h => !h.isBound || nodeId != some h.nodeId then
    some "grant consumption history has the wrong node scope"
  else if j.history.any fun h => !(binding.any fun b => b.issuerEpoch == h.highestIssuerEpoch) then
    some "grant consumption epoch does not match the durable issuer pin"
  else if !Fleet.isValidOpaqueId grantId || expiresAtMs == 0 then
    some "grant consumption intent is invalid"
  else if j.consumed.contains grantId then some "grant was already consumed"
  else if grantJournalMaxRecords ≤ j.consumed.size then
    some "grant journal is full; new grant consumption is denied"
  else none

def record (j : GrantJournal) (slot : Slot JournalLine) (grantId : String) (expiresAtMs : ℕ)
    (binding : Option ConsumedBinding) (nodeId : Option String) (io : RecordIo) :
    GrantJournal × Slot JournalLine × Except String Unit :=
  if !io.lock then (j, slot, .error "grant journal is busy")
  else
    match j.synchronize slot io.sync with
    | (slot, .error e) => (j, slot, .error e)
    | (slot, .ok j) =>
      match j.refusal? grantId expiresAtMs binding nodeId with
      | some e => (j, slot, .error e)
      | none =>
        match slot.append JournalLine.size grantJournalMaxBytes
            (.consumption grantId expiresAtMs binding) io.append with
        | (slot, .error .directory) =>
          -- the line is flushed, so the consumption counts although the call fails
          (j.enter grantId expiresAtMs binding, slot, .error (appendErrorText .directory))
        | (slot, .error e) => (j, slot, .error (appendErrorText e))
        | (slot, .ok ()) =>
          let j := j.enter grantId expiresAtMs binding
          if !io.stat then (j, slot, .error "grant journal metadata is unavailable")
          else ({ j with revision := some slot.stamp }, slot, .ok ())

def recordBoundConsumption (j : GrantJournal) (slot : Slot JournalLine) (grant : Fleet.Grant)
    (io : RecordIo) : GrantJournal × Slot JournalLine × Except String Unit :=
  if !Fleet.isValidOpaqueId grant.operationId ||
      !(1 ≤ grant.issuerEpoch && grant.issuerEpoch ≤ Fleet.maxSafeInteger) then
    (j, slot, .error "grant consume correlation is invalid")
  else
    j.record slot grant.id grant.expiresAtMs (some ⟨grant.operationId, grant.issuerEpoch⟩)
      (some grant.nodeId) io

/-! ### Pruning -/

/-- The outcome of every system call of a pruning. -/
structure PruneIo where
  lock : Bool
  sync : SyncIo
  replace : Slot.ReplaceIo
  stat : Bool
  deriving DecidableEq

/-- Every call succeeds. -/
def PruneIo.clean : PruneIo := ⟨true, .clean, .clean, true⟩

/-- The record is not yet a day past the grant's expiry. -/
def isRetained (authenticatedTimeMs expiresAtMs : ℕ) : Bool :=
  (U64.checkedAdd expiresAtMs grantReplayRetentionMs).all fun retainUntil =>
    authenticatedTimeMs < retainUntil

/-- The error a failed replacement is reported as. -/
def replaceErrorText : Slot.ReplaceError → String
  | .create => "grant journal compaction file could not be created"
  | .write => "grant journal compaction could not be written"
  | .commit => "grant journal compaction could not be committed"
  | .directory => "grant journal directory could not be synchronized"

/-- The lines of a journal that holds `records`. -/
def fileLines (j : GrantJournal) (records : Std.TreeMap String ℕ)
    (history : Option ConsumptionHistory) : List JournalLine :=
  (history.map JournalLine.history).toList ++
    records.toList.map fun (id, expiresAtMs) => .consumption id expiresAtMs j.bindings[id]?

def rewrite (j : GrantJournal) (slot : Slot JournalLine) (records : Std.TreeMap String ℕ)
    (history : Option ConsumptionHistory) (io : Slot.ReplaceIo) :
    Slot JournalLine × Except String Unit :=
  let lines := j.fileLines records history
  if history.any fun h => !h.isWritable then (slot, .error "grant history header is malformed")
  else if io.create && decide (grantJournalMaxBytes < (lines.map JournalLine.size).sum) then
    (slot, .error "grant journal compaction exceeds its size bound")
  else
    match slot.replace lines io with
    | (slot, .error e) => (slot, .error (replaceErrorText e))
    | (slot, .ok ()) => (slot, .ok ())

/-- The header after the records that are not in `kept` are dropped. -/
def prunedHistory (j : GrantJournal) (kept : Std.TreeMap String ℕ) : Option ConsumptionHistory :=
  let boundary := ((j.consumed.filter fun id _ => !kept.contains id).values).foldl max 0
  j.history.map fun h => { h with prunedThroughMs := max h.prunedThroughMs boundary }

def prune (j : GrantJournal) (slot : Slot JournalLine) (authenticatedTimeMs : ℕ) (io : PruneIo) :
    GrantJournal × Slot JournalLine × Except String Unit :=
  if !io.lock then (j, slot, .error "grant journal is busy")
  else
    match j.synchronize slot io.sync with
    | (slot, .error e) => (j, slot, .error e)
    | (slot, .ok j) =>
      let pruned := j.consumed.filter fun _ expiresAtMs => isRetained authenticatedTimeMs expiresAtMs
      if pruned.size = j.consumed.size then (j, slot, .ok ())
      else
        let history := j.prunedHistory pruned
        match j.rewrite slot pruned history io.replace with
        | (slot, .error e) => (j, slot, .error e)
        | (slot, .ok ()) =>
          let j : GrantJournal :=
            { history, consumed := pruned
              bindings := j.bindings.filter fun id _ => pruned.contains id
              revision := j.revision }
          if !io.stat then (j, slot, .error "grant history is unavailable")
          else ({ j with revision := some slot.stamp }, slot, .ok ())

/-! ### What the journal remembers -/

/-- A reader of these lines learns of the consumption, or refuses the file. -/
def Mentions (grantId : String) (expiresAtMs : ℕ) (lines : List (Option JournalLine)) : Prop :=
  none ∈ lines ∨ ∃ binding, some (.consumption grantId expiresAtMs binding) ∈ lines

/-- The consumption is in memory and in every file the current entry may lead to. -/
structure Remembers (j : GrantJournal) (slot : Slot JournalLine) (grantId : String)
    (expiresAtMs : ℕ) : Prop where
  memory : j.consumed[grantId]? = some expiresAtMs
  disk : slot.KeptNamed (Mentions grantId expiresAtMs)

variable {j j' : GrantJournal} {slot slot' : Slot JournalLine} {id : String} {e : ℕ}
  {r : Except String Unit}

theorem mentions_appendStable (id : String) (e : ℕ) : Slot.AppendStable (Mentions id e) := by
  rintro l x (h | ⟨b, h⟩)
  · exact .inl (List.mem_append_left _ h)
  · exact .inr ⟨b, List.mem_append_left _ h⟩

@[simp] theorem consumed_enter (b : Option ConsumedBinding) :
    (j.enter id e b).consumed = j.consumed.insert id e := by
  cases b <;> rfl

theorem consumed_enter_of_mem {id' : String} {e' : ℕ} {b : Option ConsumedBinding}
    (h : j.consumed[id]? = some e) (hnew : j.consumed[id']? = none) :
    (j.enter id' e' b).consumed[id]? = some e := by
  have hne : id' ≠ id := by
    rintro rfl
    rw [h] at hnew
    cases hnew
  simp [Std.TreeMap.getElem?_insert, hne, h]

/-- Reading keeps what is already in the maps and takes in every record. -/
theorem readLines_ok {index : ℕ} {lines : List (Option JournalLine)}
    (h : readLines index lines j = .ok j') :
    (∀ (id : String) (e : ℕ), j.consumed[id]? = some e → j'.consumed[id]? = some e) ∧
      ∀ id e, Mentions id e lines → j'.consumed[id]? = some e := by
  fun_induction readLines index lines j with
  | case1 => cases h; simp [Mentions]
  | case2 => cases h
  | case3 => cases h
  | case4 index header rest j _ ih =>
    obtain ⟨hkeep, hread⟩ := ih h
    refine ⟨hkeep, fun id e hm => hread id e ?_⟩
    simpa [Mentions] using hm
  | case5 => cases h
  | case6 index grantId expiresAtMs binding rest j existing hfound hsame ih =>
    obtain ⟨hkeep, hread⟩ := ih h
    obtain ⟨rfl, -⟩ : existing = expiresAtMs ∧ j.bindings[grantId]? = binding := by
      simpa [not_or] using hsame
    refine ⟨hkeep, fun id e hm => ?_⟩
    rcases hm with hm | ⟨b, hm⟩
    · exact hread id e (.inl (by simpa using hm))
    rcases List.mem_cons.mp hm with heq | hm
    · cases heq
      exact hkeep _ _ hfound
    · exact hread id e (.inr ⟨b, hm⟩)
  | case7 index grantId expiresAtMs binding rest j hfound ih =>
    obtain ⟨hkeep, hread⟩ := ih h
    refine ⟨fun id e hid => hkeep id e (consumed_enter_of_mem hid hfound), fun id e hm => ?_⟩
    rcases hm with hm | ⟨b, hm⟩
    · exact hread id e (.inl (by simpa using hm))
    rcases List.mem_cons.mp hm with heq | hm
    · cases heq
      exact hkeep _ _ (by simp)
    · exact hread id e (.inr ⟨b, hm⟩)

/-- What happens to the path is what reading it does, however the lines are judged. -/
theorem readLocked_fst (slot : Slot JournalLine) (io : ReadIo) :
    (readLocked slot io).1 = (slot.read JournalLine.size grantJournalMaxBytes
      (fun lines => !historyMisplaced lines) io.file).1 := by
  unfold readLocked
  split
  · rename_i heq
    rw [heq]
  · rename_i heq
    rw [heq]
  rename_i heq
  rw [heq]
  split
  · rfl
  split
  · rfl
  split
  · rfl
  split <;> rfl

theorem readLocked_preserves (P : List (Option JournalLine) → Prop) (slot : Slot JournalLine)
    (io : ReadIo) : Slot.Preserves P slot (readLocked slot io).1 := by
  rw [readLocked_fst]
  exact Slot.read_preserves JournalLine.size grantJournalMaxBytes _ slot io.file P

/-- All that a successful read returns: nothing for an absent file, the lines otherwise. -/
theorem readLocked_eq_ok {io : ReadIo} (h : readLocked slot io = (slot', .ok j')) :
    (slot.file? = none ∧ j' = empty) ∨
      ∃ f j₀, slot.file? = some f ∧ readLines 0 f.lines empty = .ok j₀ ∧
        j' = { j₀ with revision := some slot'.stamp } := by
  unfold readLocked at h
  split at h
  · cases h
  · rename_i heq
    cases h
    exact .inl ⟨by simpa using (Slot.read_eq_ok heq).symm, rfl⟩
  rename_i lines heq
  obtain ⟨f, hf, rfl⟩ : ∃ f, slot.file? = some f ∧ f.lines = lines := by
    simpa using (Slot.read_eq_ok heq).symm
  split at h
  · cases h
  rename_i j₀ hread
  iterate 3
    split at h
    · cases h
  cases h
  exact .inr ⟨f, j₀, hf, hread, rfl⟩

/-- A file that mentions a consumption is read as one that holds it. -/
theorem consumed_readLocked {io : ReadIo} (h : readLocked slot io = (slot', .ok j'))
    (hslot : slot.KeptNamed (Mentions id e)) : j'.consumed[id]? = some e := by
  obtain ⟨f, hf, hm⟩ := hslot.file?
  obtain ⟨hnone, -⟩ | ⟨f', j₀, hf', hread, rfl⟩ := readLocked_eq_ok h
  · rw [hf] at hnone
    cases hnone
  · obtain rfl : f = f' := Option.mem_unique hf hf'
    exact (readLines_ok hread).2 id e hm

theorem consumed_succeededBy {current : GrantJournal} (h : j.succeededBy current = .ok j') :
    j'.consumed = current.consumed := by
  unfold succeededBy at h
  split at h
  · cases h
    rfl
  iterate 3
    split at h
    · cases h
  cases h
  rfl

/-- A synchronisation leaves the path alone or reads it. -/
theorem synchronize_fst (j : GrantJournal) (slot : Slot JournalLine) (io : SyncIo) :
    (j.synchronize slot io).1 = slot ∨ (j.synchronize slot io).1 = (readLocked slot io.read).1 := by
  unfold synchronize
  split
  · exact .inl rfl
  split
  · split <;> exact .inl rfl
  split
  · exact .inl rfl
  split
  · exact .inl rfl
  split <;> rename_i heq <;> exact .inr (by rw [heq])

theorem synchronize_preserves (P : List (Option JournalLine) → Prop) (j : GrantJournal)
    (slot : Slot JournalLine) (io : SyncIo) : Slot.Preserves P slot (j.synchronize slot io).1 := by
  rcases j.synchronize_fst slot io with h | h <;> rw [h]
  · exact .refl P slot
  · exact readLocked_preserves P slot io.read

theorem stale_synchronize (j : GrantJournal) (slot : Slot JournalLine) (io : SyncIo) :
    (j.synchronize slot io).1.entry.stale = slot.entry.stale := by
  rcases j.synchronize_fst slot io with h | h <;> rw [h]
  rw [readLocked_fst]
  exact Slot.stale_read JournalLine.size grantJournalMaxBytes _ slot io.read.file

/-- A synchronisation forgets nothing the file mentions. -/
theorem remembers_synchronize {io : SyncIo} (hr : Remembers j slot id e)
    (h : j.synchronize slot io = (slot', .ok j')) : Remembers j' slot' id e := by
  have hdisk : slot'.KeptNamed (Mentions id e) := by
    have := (synchronize_preserves (Mentions id e) j slot io).named hr.disk
    rwa [h] at this
  refine ⟨?_, hdisk⟩
  unfold synchronize at h
  split at h
  · cases h
  split at h
  · split at h
    · cases h
      exact hr.memory
    · cases h
  split at h
  · cases h
  split at h
  · cases h
    exact hr.memory
  split at h
  · cases h
  rename_i slot₁ current hread
  obtain ⟨rfl, hsucc⟩ : slot₁ = slot' ∧ j.succeededBy current = .ok j' := by simpa using h
  rw [consumed_succeededBy hsucc]
  exact consumed_readLocked hread hr.disk

section Record

variable {grantId : String} {expiresAtMs : ℕ} {binding : Option ConsumedBinding}
  {nodeId : Option String} {io : RecordIo}

theorem consumed_of_refusal?_eq_none (h : j.refusal? grantId expiresAtMs binding nodeId = none) :
    j.consumed[grantId]? = none := by
  unfold refusal? at h
  iterate 4
    split at h
    · cases h
  rename_i hnew
  rw [Std.TreeMap.contains_eq_isSome_getElem?] at hnew
  simpa using hnew

/-- All that `record` does: it stops before the append, having at most synchronised, or it
appends to the synchronised journal and enters the consumption if the line is flushed. -/
theorem record_cases (h : j.record slot grantId expiresAtMs binding nodeId io = (j', slot', r)) :
    (j' = j ∧ slot' = slot ∧ r ≠ .ok ()) ∨
    (∃ err, j.synchronize slot io.sync = (slot', .error err) ∧ j' = j ∧ r ≠ .ok ()) ∨
    (j.synchronize slot io.sync = (slot', .ok j') ∧ r ≠ .ok ()) ∨
    ∃ slot₁ j₁ result, j.synchronize slot io.sync = (slot₁, .ok j₁) ∧ j₁.consumed[grantId]? = none ∧
      slot₁.append JournalLine.size grantJournalMaxBytes
        (.consumption grantId expiresAtMs binding) io.append = (slot', result) ∧
      ((result ≠ .ok () ∧ result ≠ .error .directory ∧ j' = j₁ ∧ r ≠ .ok ()) ∨
        ((result = .ok () ∨ result = .error .directory) ∧
          j'.consumed = (j₁.enter grantId expiresAtMs binding).consumed ∧
          (r = .ok () → result = .ok ()))) := by
  unfold record at h
  split at h
  · cases h
    exact .inl ⟨rfl, rfl, by simp⟩
  split at h
  · rename_i slot₁ err hsync
    cases h
    exact .inr (.inl ⟨err, hsync, rfl, by simp⟩)
  rename_i slot₁ j₁ hsync
  split at h
  · cases h
    exact .inr (.inr (.inl ⟨hsync, by simp⟩))
  rename_i hnone
  have hnew := consumed_of_refusal?_eq_none hnone
  refine .inr (.inr (.inr ?_))
  split at h
  · rename_i happend
    cases h
    exact ⟨_, j₁, _, hsync, hnew, happend, .inr ⟨.inr rfl, rfl, by simp⟩⟩
  · rename_i err herr happend
    cases h
    exact ⟨_, _, _, hsync, hnew, happend,
      .inl ⟨by simp, fun heq => herr (by simpa using heq), rfl, by simp⟩⟩
  · rename_i happend
    split at h <;> cases h
    all_goals exact ⟨_, j₁, _, hsync, hnew, happend, .inr ⟨.inl rfl, rfl, by simp⟩⟩

theorem record_preserves {P : List (Option JournalLine) → Prop} (hP : Slot.AppendStable P)
    (h : j.record slot grantId expiresAtMs binding nodeId io = (j', slot', r)) :
    Slot.Preserves P slot slot' := by
  have hsync := synchronize_preserves P j slot io.sync
  obtain ⟨-, rfl, -⟩ | ⟨err, hs, -, -⟩ | ⟨hs, -⟩ | ⟨slot₁, j₁, result, hs, -, ha, -⟩ := record_cases h
  · exact .refl P _
  · simpa [hs] using hsync
  · simpa [hs] using hsync
  rw [hs] at hsync
  have happend := Slot.append_preserves hP JournalLine.size grantJournalMaxBytes slot₁
    (.consumption grantId expiresAtMs binding) io.append
  rw [ha] at happend
  exact hsync.trans happend

/-- Recording forgets nothing, whether it succeeds or fails. -/
theorem remembers_record (hr : Remembers j slot id e)
    (h : j.record slot grantId expiresAtMs binding nodeId io = (j', slot', r)) :
    Remembers j' slot' id e := by
  refine ⟨?_, (record_preserves (mentions_appendStable id e) h).named hr.disk⟩
  obtain ⟨rfl, -, -⟩ | ⟨err, -, rfl, -⟩ | ⟨hs, -⟩ | ⟨slot₁, j₁, result, hs, hnew, -, hcase⟩ :=
    record_cases h
  · exact hr.memory
  · exact hr.memory
  · exact (remembers_synchronize hr hs).memory
  · have hmem := (remembers_synchronize hr hs).memory
    rcases hcase with ⟨-, -, rfl, -⟩ | ⟨-, hconsumed, -⟩
    · exact hmem
    · rw [hconsumed]
      exact consumed_enter_of_mem hmem hnew

theorem record_ok (h : j.record slot grantId expiresAtMs binding nodeId io = (j', slot', .ok ())) :
    Remembers j' slot' grantId expiresAtMs := by
  obtain ⟨-, -, hne⟩ | ⟨err, -, -, hne⟩ | ⟨-, hne⟩ | ⟨slot₁, j₁, result, -, -, ha, hcase⟩ :=
    record_cases h
  · exact absurd rfl hne
  · exact absurd rfl hne
  · exact absurd rfl hne
  rcases hcase with ⟨-, -, -, hne⟩ | ⟨hresult, hconsumed, -⟩
  · exact absurd rfl hne
  refine ⟨by simp [hconsumed], ?_⟩
  have hkept : (slot₁.append JournalLine.size grantJournalMaxBytes
      (.consumption grantId expiresAtMs binding) io.append).1.KeptNamed
        (Mentions grantId expiresAtMs) := by
    refine Slot.keptNamed_append (by simpa [ha] using hresult) fun l => ⟨?_, ?_⟩
    · exact .inr ⟨binding, by simp⟩
    · exact .inl (by simp)
  rwa [ha] at hkept

theorem recordBoundConsumption_ok {grant : Fleet.Grant}
    (h : j.recordBoundConsumption slot grant io = (j', slot', .ok ())) :
    Remembers j' slot' grant.id grant.expiresAtMs := by
  unfold recordBoundConsumption at h
  split at h
  · cases h
  · exact record_ok h

/-- A consumption recorded under a settled entry leaves it settled. -/
theorem stale_record (h : j.record slot grantId expiresAtMs binding nodeId io = (j', slot', .ok ()))
    (hstale : slot.entry.stale = []) : slot'.entry.stale = [] := by
  obtain ⟨-, -, hne⟩ | ⟨err, -, -, hne⟩ | ⟨-, hne⟩ | ⟨slot₁, j₁, result, hs, -, ha, hcase⟩ :=
    record_cases h
  · exact absurd rfl hne
  · exact absurd rfl hne
  · exact absurd rfl hne
  rcases hcase with ⟨-, -, -, hne⟩ | ⟨-, -, hok⟩
  · exact absurd rfl hne
  obtain rfl := hok rfl
  have hsync := stale_synchronize j slot io.sync
  rw [hs] at hsync
  have happend := Slot.stale_append (by rw [ha]) (hsync.trans hstale)
  rwa [ha] at happend

theorem stale_recordBoundConsumption {grant : Fleet.Grant}
    (h : j.recordBoundConsumption slot grant io = (j', slot', .ok ()))
    (hstale : slot.entry.stale = []) : slot'.entry.stale = [] := by
  unfold recordBoundConsumption at h
  split at h
  · cases h
  · exact stale_record h hstale

end Record

section Prune

variable {io : PruneIo} {authenticatedTimeMs : ℕ}

theorem le_of_isRetained_eq_false (h : isRetained authenticatedTimeMs e = false) :
    e + grantReplayRetentionMs ≤ authenticatedTimeMs :=
  U64.le_of_all_checkedAdd_eq_false h

theorem rewrite_preserves (j : GrantJournal) (slot : Slot JournalLine)
    {records : Std.TreeMap String ℕ} (hrecords : records[id]? = some e)
    (history : Option ConsumptionHistory) (io : Slot.ReplaceIo) :
    Slot.Preserves (Mentions id e) slot (j.rewrite slot records history io).1 := by
  have hmentions : Mentions id e ((j.fileLines records history).map some) := by
    refine .inr ⟨j.bindings[id]?, List.mem_map_of_mem (List.mem_append_right _ ?_)⟩
    exact List.mem_map.mpr
      ⟨(id, e), Std.TreeMap.mem_toList_iff_getElem?_eq_some.mpr hrecords, rfl⟩
  have hreplace := Slot.replace_preserves hmentions slot io
  unfold rewrite
  dsimp only
  split
  · exact .refl _ slot
  split
  · exact .refl _ slot
  split <;> rename_i heq <;> simpa [heq] using hreplace

/-- Pruning forgets nothing that is less than a day past its expiry at the time it is given,
whether it succeeds or fails. -/
theorem prune_remembers (hr : Remembers j slot id e)
    (hretained : isRetained authenticatedTimeMs e = true)
    (h : j.prune slot authenticatedTimeMs io = (j', slot', r)) :
    Remembers j' slot' id e ∧ Slot.Preserves (Mentions id e) slot slot' := by
  have hsync := synchronize_preserves (Mentions id e) j slot io.sync
  unfold prune at h
  split at h
  · cases h
    exact ⟨hr, .refl _ _⟩
  split at h
  · rename_i hs
    cases h
    rw [hs] at hsync
    exact ⟨⟨hr.memory, hsync.named hr.disk⟩, hsync⟩
  rename_i slot₁ j₁ hs
  rw [hs] at hsync
  have hr₁ : Remembers j₁ slot₁ id e := remembers_synchronize hr hs
  dsimp only at h
  split at h
  · cases h
    exact ⟨hr₁, hsync⟩
  have hpruned : (j₁.consumed.filter fun _ expiresAtMs =>
      isRetained authenticatedTimeMs expiresAtMs)[id]? = some e := by
    simp [hr₁.memory, hretained]
  have hrewrite := rewrite_preserves j₁ slot₁ hpruned (j₁.prunedHistory (j₁.consumed.filter
    fun _ expiresAtMs => isRetained authenticatedTimeMs expiresAtMs)) io.replace
  split at h
  · rename_i hw
    cases h
    rw [hw] at hrewrite
    exact ⟨⟨hr₁.memory, hrewrite.named hr₁.disk⟩, hsync.trans hrewrite⟩
  · rename_i hw
    rw [hw] at hrewrite
    split at h <;> cases h <;>
      exact ⟨⟨hpruned, hrewrite.named hr₁.disk⟩, hsync.trans hrewrite⟩

end Prune

end GrantJournal

end BlindPass.Broker
