import BlindPass.Library.Execution
import BlindPass.Library.Table
import BlindPass.Library.Utf8
import BlindPass.Broker.Ledger

/-!
# Writers that share a journal

Several processes hold the journal in memory and write the one file, each under its lock: the
broker that consumes grants and prunes, and the tool that binds the history to its controller.
A writer reads the file again when another one changed it, and refuses a file that lost a
record it has seen.

Each call is specified by what it does to the ledger that the path holds: a step of any
process goes to a later content, which every other process still tracks.
-/

namespace BlindPass.Broker

open Storage (Slot)

/-- The pinned controller: its scope and the epoch of its key. -/
structure PinnedIssuer where
  tenantId : String
  nodeId : String
  epoch : ℕ
  keyId : String
  deriving DecidableEq

namespace GrantJournal

/-! ### The header -/

/-- The outcome of every system call of `history::initialize`. -/
structure GenesisIo where
  random : Bool
  stage : Bool
  create : Bool
  write : Bool
  link : Bool
  directory : Bool
  deriving DecidableEq

/-- Every call succeeds. -/
def GenesisIo.clean : GenesisIo := ⟨true, true, true, true, true, true⟩

/-- The header of a new journal, with the random bytes of its id. -/
def genesis (nonce : List UInt8) : ConsumptionHistory where
  historyId := String.ofList (Fleet.base64UrlEncode nonce)
  tenantId := ""
  nodeId := ""
  issuerKeyId := ""
  prunedThroughMs := 0
  highestIssuerEpoch := 0

/-- `history::initialize`: publish a journal with a header, unless there is one. -/
def initializeConsumptionHistory (slot : Slot JournalLine) (nonce : List UInt8) (io : GenesisIo) :
    Slot JournalLine × Except String Unit :=
  if !io.random then (slot, .error "grant history randomness is unavailable")
  else if !io.stage then (slot, .error "grant history genesis could not be staged")
  else if !io.create then (slot, .error "grant history genesis could not be created")
  else if !io.write then (slot, .error "grant history genesis could not be flushed")
  else if slot.file?.isSome || !io.link then
    (slot, .error "grant history genesis could not be published")
  else
    let published := slot.renamed (.ofLines [.history (genesis nonce)])
    if io.directory then (published.syncDirectory, .ok ())
    else (published, .error "grant history directory could not be synchronized")

/-- The outcome of every system call of `bind`. -/
structure BindIo where
  lock : Bool
  read : ReadIo
  replace : Slot.ReplaceIo
  deriving DecidableEq

/-- Every call succeeds. -/
def BindIo.clean : BindIo := ⟨true, .clean, .clean⟩

/-- The highest epoch the journal has seen. -/
def observedEpoch (j : GrantJournal) : ℕ :=
  max (j.history.elim 0 (·.highestIssuerEpoch))
    (j.bindings.values.foldl (fun highest b => max highest b.issuerEpoch) 0)

/-- The header names another controller. -/
def boundElsewhere (h : ConsumptionHistory) (pin : PinnedIssuer) : Bool :=
  h.tenantId != pin.tenantId || h.nodeId != pin.nodeId || h.issuerKeyId != pin.keyId

/-- The header once it is bound to the pin. -/
def boundTo (h : ConsumptionHistory) (pin : PinnedIssuer) : ConsumptionHistory :=
  { h with
    tenantId := pin.tenantId
    nodeId := pin.nodeId
    issuerKeyId := pin.keyId
    highestIssuerEpoch := max h.highestIssuerEpoch pin.epoch }

def bind (slot : Slot JournalLine) (pin : PinnedIssuer) (io : BindIo) :
    Slot JournalLine × Except String ℕ :=
  if !io.lock then (slot, .error "grant journal is busy")
  else
    match readLocked slot io.read with
    | (slot, .error e) => (slot, .error e)
    | (slot, .ok j) =>
      match j.history with
      | none => (slot, .ok j.observedEpoch)
      | some h =>
        if h.isBound && boundElsewhere h pin then
          (slot, .error "grant history is bound to another controller scope")
        else if !h.isBound && !j.consumed.isEmpty then
          (slot, .error "grant history cannot bind after consumption")
        else if boundTo h pin = h then (slot, .ok j.observedEpoch)
        else
          match j.rewrite slot j.consumed (some (boundTo h pin)) io.replace with
          | (slot, .error e) => (slot, .error e)
          | (slot, .ok ()) => (slot, .ok j.observedEpoch)

/-! ### A record that is not reported -/

/-- The call reads the file again if it has to, and the journal is up to date. -/
def reachesFile (j : GrantJournal) (slot : Slot JournalLine) (io : RecordIo) : Bool :=
  io.lock && (j.synchronize slot io.sync).2.isOk

/-- The call fails after its line is in the file: the line cannot be taken back after a failed
flush, or the directory of a new file is not synchronised, or the file cannot be inspected. -/
def leavesUnreported (j : GrantJournal) (slot : Slot JournalLine) (r : Consumption)
    (nodeId : Option String) (io : RecordIo) : Bool :=
  io.lock &&
    match j.synchronize slot io.sync with
    | (_, .error _) => false
    | (slot, .ok j) =>
      (j.refusal? r.grantId r.expiresAtMs r.binding nodeId).isNone &&
        (slot.leavesLine JournalLine.size grantJournalMaxBytes r.line io.append ||
          (slot.append JournalLine.size grantJournalMaxBytes r.line io.append).2 == .ok () && !io.stat)

end GrantJournal

/-! ### The machine -/

/-- The path and the journals of the processes that have opened it. -/
structure SharedJournal where
  slot : Slot JournalLine
  writer : ℕ → Option GrantJournal

/-- A call of one of the processes, with the outcome of every system call it makes. -/
inductive WriterEvent
  | initializeConsumptionHistory (nonce : List UInt8) (io : GrantJournal.GenesisIo)
  | «open» (process : ℕ) (lock : Bool) (io : GrantJournal.ReadIo)
  | record (process : ℕ) (r : Consumption) (nodeId : Option String) (io : GrantJournal.RecordIo)
  | prune (process : ℕ) (authenticatedTimeMs : ℕ) (io : GrantJournal.PruneIo)
  | bind (pin : PinnedIssuer) (io : GrantJournal.BindIo)

namespace SharedJournal

/-- The journal of a process after a call. -/
def set (s : SharedJournal) (slot : Slot JournalLine) (process : ℕ) (j : GrantJournal) :
    SharedJournal where
  slot := slot
  writer := Function.update s.writer process (some j)

/-- One call. A process that has not opened the journal makes none. -/
def step (s : SharedJournal) : WriterEvent → SharedJournal × Option (Except String Unit)
  | .initializeConsumptionHistory nonce io =>
    match GrantJournal.initializeConsumptionHistory s.slot nonce io with
    | (slot, r) => ({ s with slot := slot }, some r)
  | .open process lock io =>
    if !lock then (s, some (.error "grant journal is busy"))
    else
      match GrantJournal.readLocked s.slot io with
      | (slot, .error e) => ({ s with slot := slot }, some (.error e))
      | (slot, .ok j) => (s.set slot process j, some (.ok ()))
  | .record process r nodeId io =>
    match s.writer process with
    | none => (s, none)
    | some j =>
      match j.record s.slot r.grantId r.expiresAtMs r.binding nodeId io with
      | (j, slot, result) => (s.set slot process j, some result)
  | .prune process authenticatedTimeMs io =>
    match s.writer process with
    | none => (s, none)
    | some j =>
      match j.prune s.slot authenticatedTimeMs io with
      | (j, slot, result) => (s.set slot process j, some result)
  | .bind pin io =>
    match GrantJournal.bind s.slot pin io with
    | (slot, r) => ({ s with slot := slot }, some (r.map fun _ => ()))

end SharedJournal

/-- The values a caller passes: 32 random bytes, 64-bit times, and the correlation that
`record_bound_consumption` has checked. -/
def WriterEvent.IsCall : WriterEvent → Prop
  | .initializeConsumptionHistory nonce _ => nonce.length = 32
  | .open .. => True
  | .record _ r _ _ => r.expiresAtMs < 2 ^ 64 ∧ ∀ b ∈ r.binding,
      Fleet.isValidOpaqueId b.operationId ∧ 1 ≤ b.issuerEpoch ∧ b.issuerEpoch ≤ Fleet.maxSafeInteger
  | .prune _ authenticatedTimeMs _ => authenticatedTimeMs < 2 ^ 64
  | .bind .. => True

/-- Any number of processes over a path that names nothing yet. -/
def writers : Execution.Machine SharedJournal WriterEvent (Option (Except String Unit)) where
  Start s := s.slot = .absent ∧ ∀ process, s.writer process = none
  Admits _ e := e.IsCall
  step := SharedJournal.step

/-! ### What a process knows of the file -/

variable {nodeId : Option String} {r : Consumption} {result : Except String Unit}
  {authenticatedTimeMs : ℕ} {nonce : List UInt8}

namespace GrantJournal

/-- The errors by which a synchronisation reports that the file was rolled back. -/
def rollbackErrors : List String :=
  ["grant history provenance disappeared", "grant history identity or coverage changed",
    "grant history lost consumption records"]

/-- The result does not report a rollback. -/
def NoRollback {α : Type} (result : Except String α) : Prop :=
  ∀ e, result = .error e → e ∉ rollbackErrors

theorem NoRollback.error {α : Type} {e : String} (h : e ∉ rollbackErrors) :
    NoRollback (.error e : Except String α) := by
  rintro _ ⟨⟩
  exact h

variable {j j' : GrantJournal} {slot slot' : Slot JournalLine} {L L' : Ledger}

/-- What the journal of a process says about a path that holds `L`: with the path's stamp, all
of it, and with an older one, what an earlier content had. -/
structure Tracks (j : GrantJournal) (slot : Slot JournalLine) (L : Ledger) : Prop where
  seen : ∀ r, j.revision = some r → r ≤ slot.stamp
  current : j.revision = some slot.stamp →
    (∀ f ∈ slot.file?, f.torn = 0) ∧ Agrees j L.header L.records
  absent : slot.file? = none → Agrees j L.header L.records
  precedes : j.view.Precedes L.view

theorem Tracks.of_agrees (h : Agrees j L.header L.records)
    (hseen : ∀ r, j.revision = some r → r ≤ slot.stamp) (htorn : ∀ f ∈ slot.file?, f.torn = 0) :
    Tracks j slot L :=
  ⟨hseen, fun _ => ⟨htorn, h⟩, fun _ => h, h.view_precedes.1⟩

/-- The path went from holding `L` to holding `L'`, a later content. -/
structure Later (slot : Slot JournalLine) (L : Ledger) (slot' : Slot JournalLine) (L' : Ledger) :
    Prop where
  held : L'.HeldBy slot'
  follows : slot.Follows slot'
  present : slot'.file? = none → slot.file? = none
  precedes : L.view.Precedes L'.view

theorem Later.refl (h : L.HeldBy slot) : Later slot L slot L :=
  ⟨h, .refl slot, id, .refl L.view⟩

theorem Later.trans {slot'' : Slot JournalLine} {L'' : Ledger} (h : Later slot L slot' L')
    (h' : Later slot' L' slot'' L'') : Later slot L slot'' L'' :=
  ⟨h'.held, h.follows.trans h'.follows, h.present ∘ h'.present, h.precedes.trans h'.precedes⟩

/-- What other writers do to the file leaves a process behind, not wrong. -/
theorem Tracks.later (h : Tracks j slot L) (hL : L.HeldBy slot) (hl : Later slot L slot' L') :
    Tracks j slot' L' where
  seen r hr := (h.seen r hr).trans hl.follows.stamp_le
  current hr := by
    rcases hl.follows with ⟨hfile, hstamp⟩ | hlt
    · rw [hL.unique hl.held hfile, hfile]
      exact h.current (hstamp ▸ hr)
    · exact absurd (h.seen _ hr) (not_le.mpr hlt)
  absent hnone := by
    have hbefore := hl.present hnone
    rw [hL.unique hl.held (hnone.trans hbefore.symm)]
    exact h.absent hbefore
  precedes := h.precedes.trans hl.precedes

/-! ### Reading -/

theorem readLines_error {index : ℕ} {lines : List (Option JournalLine)} {e : String}
    (h : readLines index lines j = .error e) : e ∉ rollbackErrors := by
  fun_induction readLines index lines j with
  | case1 => cases h
  | case2 => cases h; decide
  | case3 => cases h; decide
  | case4 _ _ _ _ _ ih => exact ih h
  | case5 => cases h; decide
  | case6 _ _ _ _ _ _ _ _ _ ih => exact ih h
  | case7 _ _ _ _ _ _ _ ih => exact ih h

theorem readLocked_error {io : ReadIo} {e : String} (h : readLocked slot io = (slot', .error e)) :
    e ∉ rollbackErrors := by
  unfold readLocked at h
  split at h
  · rename_i err _
    cases h
    cases err <;> decide
  · cases h
  split at h
  · rename_i hread
    cases h
    exact readLines_error hread
  split_ifs at h <;> cases h <;> decide

theorem later_readLocked (hL : L.HeldBy slot) (io : ReadIo) :
    Later slot L (readLocked slot io).1 L := by
  rw [readLocked_fst]
  have hlines := Slot.lines_read JournalLine.size grantJournalMaxBytes
    (fun lines => !historyMisplaced lines) slot io.file
  refine ⟨hL.of_lines hlines, Slot.follows_read .., fun hnone => ?_, .refl L.view⟩
  rw [hnone, Option.map_none] at hlines
  exact Option.map_eq_none_iff.mp hlines.symm

/-- A read of a path that holds `L` returns what it holds. -/
theorem readLocked_spec (hL : L.HeldBy slot) {io : ReadIo}
    (h : readLocked slot io = (slot', .ok j)) :
    Agrees j L.header L.records ∧ (∀ f ∈ slot'.file?, f.torn = 0) ∧
      ∀ r, j.revision = some r → r ≤ slot'.stamp := by
  refine ⟨hL.agrees h, ?_, fun r hr => ?_⟩
  · unfold readLocked at h
    split at h
    · cases h
    · rename_i heq
      cases h
      exact Slot.torn_read heq
    · rename_i heq
      split at h
      · cases h
      split_ifs at h
      · cases h
      · cases h
      · cases h
      · cases h
        exact Slot.torn_read heq
  · obtain ⟨-, rfl⟩ | ⟨f, j₀, -, -, rfl⟩ := readLocked_eq_ok h
    · cases hr
    · exact (Option.some.inj hr).ge

/-- A synchronisation brings a process up to date, and never reports a rollback. -/
theorem synchronize_spec (hL : L.HeldBy slot) (hj : Tracks j slot L) {io : SyncIo}
    {result : Except String GrantJournal} (h : j.synchronize slot io = (slot', result)) :
    Later slot L slot' L ∧ NoRollback result ∧
      ∀ j', result = .ok j' → Agrees j' L.header L.records ∧ (∀ f ∈ slot'.file?, f.torn = 0) ∧
        ∀ r, j'.revision = some r → r ≤ slot'.stamp := by
  unfold synchronize at h
  split at h
  · cases h
    exact ⟨.refl hL, .error (by decide), nofun⟩
  split at h
  · rename_i hnone
    split at h
    · cases h
      refine ⟨.refl hL, nofun, ?_⟩
      rintro _ ⟨⟩
      exact ⟨hj.absent hnone, by simp [hnone], hj.seen⟩
    · cases h
      exact ⟨.refl hL, .error (by decide), nofun⟩
  split at h
  · cases h
    exact ⟨.refl hL, .error (by decide), nofun⟩
  split at h
  · rename_i hcurrent
    cases h
    refine ⟨.refl hL, nofun, ?_⟩
    rintro _ ⟨⟩
    exact ⟨(hj.current hcurrent).2, (hj.current hcurrent).1, hj.seen⟩
  have hlater := later_readLocked hL io.read
  split at h
  · rename_i slot₁ e hread
    cases h
    rw [hread] at hlater
    exact ⟨hlater, .error (readLocked_error hread), nofun⟩
  · rename_i slot₁ current hread
    have hspec := readLocked_spec hL hread
    rw [hread] at hlater
    rw [succeededBy_of_precedes (hj.precedes.trans hspec.1.view_precedes.2)] at h
    cases h
    refine ⟨hlater, nofun, ?_⟩
    rintro _ ⟨⟩
    exact hspec

/-! ### Recording -/

/-- The checks of `record` pass only for a new, well formed consumption under the pinned epoch. -/
theorem refusal?_eq_none (h : j.refusal? r.grantId r.expiresAtMs r.binding nodeId = none) :
    (∀ h ∈ j.history, h.isBound = true) ∧
      (∀ h ∈ j.history, ∀ b ∈ r.binding, b.issuerEpoch ≤ h.highestIssuerEpoch) ∧
      Fleet.isValidOpaqueId r.grantId = true ∧ r.expiresAtMs ≠ 0 ∧
      j.consumed.contains r.grantId = false ∧ j.consumed.size < grantJournalMaxRecords := by
  unfold refusal? at h
  split at h
  · cases h
  rename_i hscope
  split at h
  · cases h
  rename_i hepoch
  split at h
  · cases h
  rename_i hvalid
  split at h
  · cases h
  rename_i hnew
  split at h
  · cases h
  rename_i hroom
  simp only [Bool.or_eq_true, Bool.not_eq_true', beq_iff_eq, not_or, Bool.not_eq_false] at hvalid
  refine ⟨fun header hh => ?_, fun header hh b hb => ?_, hvalid.1, hvalid.2,
    Bool.eq_false_iff.mpr hnew, not_le.mp hroom⟩
  · rw [Option.mem_def] at hh
    rw [hh] at hscope
    by_contra hunbound
    simp [Bool.eq_false_iff.mpr hunbound] at hscope
  · rw [Option.mem_def] at hh hb
    rw [hh, hb] at hepoch
    exact Nat.le_of_eq (by simpa using hepoch)

/-- A consumption that `record` writes to the path extends the ledger. -/
theorem exists_push (hj : Agrees j L.header L.records)
    (hrefusal : j.refusal? r.grantId r.expiresAtMs r.binding nodeId = none)
    (hsize : r.expiresAtMs < 2 ^ 64)
    (hbinding : ∀ b ∈ r.binding, Fleet.isValidOpaqueId b.operationId ∧ 1 ≤ b.issuerEpoch ∧
      b.issuerEpoch ≤ Fleet.maxSafeInteger) :
    ∃ L' : Ledger, L'.header = L.header ∧ L'.records = L.records ++ [r] ∧
      r.grantId ∉ L.records.map Consumption.grantId ∧
      Agrees (j.enter r.grantId r.expiresAtMs r.binding) L'.header L'.records := by
  obtain ⟨hbound, hpinned, hvalid, hpositive, hnew, hroom⟩ := refusal?_eq_none hrefusal
  rw [hj.history] at hbound hpinned
  rw [hj.size] at hroom
  have hfresh := hj.contains_eq_false.mp hnew
  have hreadable : r.isReadable = true := by
    simp only [Consumption.isReadable, hvalid, Bool.true_and, Bool.and_eq_true, bne_iff_ne, ne_eq,
      decide_eq_true_eq]
    refine ⟨⟨hpositive, hsize⟩, ?_⟩
    cases hb : r.binding with
    | none => rfl
    | some b =>
      obtain ⟨hid, hlow, hhigh⟩ := hbinding b hb
      simp [hid, hlow, hhigh]
  exact ⟨L.push r hfresh hreadable hbound hpinned hroom, rfl, rfl, hfresh, hj.enter hfresh hpinned⟩

theorem precedes_of_push (hheader : L'.header = L.header)
    (hrecords : L'.records = L.records ++ [r]) : L.view.Precedes L'.view := by
  intro h hh
  refine ⟨h, ?_, rfl, le_rfl, le_rfl, fun _ => by simp [ConsumptionHistory.sameScope],
    ?_⟩
  · rw [show L'.view.header = L.view.header from hheader]
    exact hh
  · rintro id e ⟨r', hr', hid⟩ -
    exact ⟨r', hrecords ▸ List.mem_append_left _ hr', hid⟩

theorem lines_of_push (hheader : L'.header = L.header) (hrecords : L'.records = L.records ++ [r]) :
    L'.lines = L.lines ++ [r.line] := by
  simp [Ledger.lines, hheader, hrecords]

/-- What an append of the line of a consumption does to a path that holds `L` and has no tail. -/
theorem append_spec (hL : L.HeldBy slot) (htorn : ∀ f ∈ slot.file?, f.torn = 0)
    (hheader : L'.header = L.header) (hrecords : L'.records = L.records ++ [r]) {io : Slot.AppendIo}
    {result : Except Slot.AppendError Unit}
    (h : slot.append JournalLine.size grantJournalMaxBytes r.line io = (slot', result)) :
    (Later slot L slot' L' ∧ (result = .ok () ∨
        slot.leavesLine JournalLine.size grantJournalMaxBytes r.line io = true)) ∨
      (Later slot L slot' L ∧ result ≠ .ok () ∧ result ≠ .error .directory ∧
        slot.leavesLine JournalLine.size grantJournalMaxBytes r.line io = false) := by
  have hlines := slot.lines_append JournalLine.size grantJournalMaxBytes r.line io
  have hfollows := slot.follows_append JournalLine.size grantJournalMaxBytes r.line io
  have hzero : (slot.file?.getD .empty).torn = 0 := by
    cases hf : slot.file? with
    | none => rfl
    | some f => exact htorn f hf
  -- the file has no tail, so a line that is written is a line of its own
  have happended : ((slot.file?.getD .empty).appendLine r.line).lines = L'.lines.map some := by
    rw [Storage.File.appendLine, if_pos hzero, hL, lines_of_push hheader hrecords, List.map_append]
    rfl
  rw [h] at hlines hfollows
  by_cases hstays : result = .ok () ∨
      slot.leavesLine JournalLine.size grantJournalMaxBytes r.line io = true
  · rw [if_pos hstays, happended] at hlines
    refine .inl ⟨⟨hlines, hfollows, fun hnone => ?_, precedes_of_push hheader hrecords⟩, hstays⟩
    rw [hnone, lines_of_push hheader hrecords] at hlines
    simp [Storage.File.empty] at hlines
  · rw [if_neg hstays] at hlines
    obtain ⟨hfailed, htaken⟩ := not_or.mp hstays
    have hdirectory : result ≠ .error .directory := by
      rintro rfl
      have hfile : slot'.file? = some ((slot.file?.getD .empty).appendLine r.line) := by
        have hflushed := slot.file?_append (.inr (congrArg Prod.snd h))
        rwa [h] at hflushed
      rw [hfile, Option.getD_some, happended, hL, lines_of_push hheader hrecords] at hlines
      simp at hlines
    refine .inr ⟨⟨hlines.trans hL, hfollows, fun hnone => ?_, .refl L.view⟩, hfailed, hdirectory,
      Bool.eq_false_iff.mpr htaken⟩
    exact slot.file?_of_append (by rwa [h])

/-- All that `record` does to a path that holds `L`: nothing, or it adds the consumption, which
succeeds or is left unreported. -/
theorem record_spec (hL : L.HeldBy slot) (hj : Tracks j slot L) {io : RecordIo}
    (hsize : r.expiresAtMs < 2 ^ 64)
    (hbinding : ∀ b ∈ r.binding, Fleet.isValidOpaqueId b.operationId ∧ 1 ≤ b.issuerEpoch ∧
      b.issuerEpoch ≤ Fleet.maxSafeInteger)
    (h : j.record slot r.grantId r.expiresAtMs r.binding nodeId io = (j', slot', result)) :
    NoRollback result ∧ ∃ L', Later slot L slot' L' ∧ Tracks j' slot' L' ∧
        ((L' = L ∧ result ≠ .ok () ∧ j.leavesUnreported slot r nodeId io = false ∧
            (j.reachesFile slot io = true → Agrees j' L.header L.records) ∧
            (j.reachesFile slot io = false → j' = j)) ∨
          (L'.records = L.records ++ [r] ∧ L'.header = L.header ∧
            r.grantId ∉ L.records.map Consumption.grantId ∧
            (result = .ok () ∨ j.leavesUnreported slot r nodeId io = true))) := by
  unfold record at h
  split at h
  · rename_i hlock
    cases h
    have hunlocked : io.lock = false := by simpa using hlock
    exact ⟨.error (by decide), L, .refl hL, hj, .inl ⟨rfl, by simp,
      by simp [leavesUnreported, hunlocked], by simp [reachesFile, hunlocked], fun _ => rfl⟩⟩
  rename_i hlock
  split at h
  · rename_i slot₁ e hsync
    cases h
    obtain ⟨hlater, herror, -⟩ := synchronize_spec hL hj hsync
    exact ⟨.error (herror e rfl), L, hlater, hj.later hL hlater, .inl ⟨rfl, by simp,
      by simp [leavesUnreported, hsync], by simp [reachesFile, hsync, Except.isOk, Except.toBool],
      fun _ => rfl⟩⟩
  rename_i slot₁ j₁ hsync
  obtain ⟨hlater, -, hok⟩ := synchronize_spec hL hj hsync
  obtain ⟨hagrees, htorn, hseen⟩ := hok j₁ rfl
  have htracks : Tracks j₁ slot₁ L := .of_agrees hagrees hseen htorn
  have hreaches : j.reachesFile slot io = true := by
    simp_all [reachesFile, Except.isOk, Except.toBool]
  split at h
  · rename_i e hrefused
    cases h
    refine ⟨?_, L, hlater, htracks, .inl ⟨rfl, by simp, by simp [leavesUnreported, hsync, hrefused],
      fun _ => hagrees, by simp [hreaches]⟩⟩
    rintro _ ⟨⟩
    unfold refusal? at hrefused
    split_ifs at hrefused <;> cases hrefused <;> decide
  rename_i hrefusal
  obtain ⟨L', hheader, hrecords, hnew, hentered⟩ := exists_push hagrees hrefusal hsize hbinding
  rcases happend : slot₁.append JournalLine.size grantJournalMaxBytes r.line io.append
    with ⟨slot₂, res⟩
  have hspec := append_spec hlater.held htorn hheader hrecords happend
  have hunreported : j.leavesUnreported slot r nodeId io =
      (slot₁.leavesLine JournalLine.size grantJournalMaxBytes r.line io.append ||
        res == .ok () && !io.stat) := by
    simp_all [leavesUnreported]
  rw [hunreported]
  -- a consumption is entered when its line is flushed, whatever fails afterwards
  have hflushed : res = .ok () ∨ res = .error .directory →
      Tracks (j₁.enter r.grantId r.expiresAtMs r.binding) slot₂ L' ∧
        ∀ f ∈ slot₂.file?, f.torn = 0 := by
    intro hres
    have hfile := slot₁.file?_append (by rw [happend]; exact hres)
    rw [happend] at hfile
    have hnone : ∀ f ∈ slot₂.file?, f.torn = 0 := by
      rintro f hf
      obtain rfl := Option.mem_unique hfile hf
      rfl
    have hfollows := slot₁.follows_append JournalLine.size grantJournalMaxBytes r.line io.append
    rw [happend] at hfollows
    refine ⟨.of_agrees hentered (fun rev hrev => ?_) hnone, hnone⟩
    refine (hseen rev ?_).trans hfollows.stamp_le
    rw [← hrev]
    cases r.binding <;> rfl
  rw [Consumption.line] at happend
  rw [happend] at h
  cases res with
  | error e =>
    cases e with
    | directory =>
      cases h
      rcases hspec with ⟨hl, hstays⟩ | ⟨-, -, hdirectory, -⟩
      · exact ⟨.error (by decide), L', hlater.trans hl, (hflushed (.inr rfl)).1,
          .inr ⟨hrecords, hheader, hnew, .inr (by simpa using hstays)⟩⟩
      · exact absurd rfl hdirectory
    | inspect | create | metadata | full | flush =>
      cases h
      refine ⟨.error (by decide), ?_⟩
      rcases hspec with ⟨hl, hstays⟩ | ⟨hl, -, -, htaken⟩
      · exact ⟨L', hlater.trans hl, htracks.later hlater.held hl,
          .inr ⟨hrecords, hheader, hnew, .inr (by simpa using hstays)⟩⟩
      · exact ⟨L, hlater.trans hl, htracks.later hlater.held hl, .inl ⟨rfl, by simp,
          by simpa using htaken, fun _ => hagrees, by simp [hreaches]⟩⟩
  | ok =>
    have hl : Later slot₁ L slot₂ L' := by
      rcases hspec with ⟨hl, -⟩ | ⟨-, hne, -⟩
      · exact hl
      · exact absurd rfl hne
    obtain ⟨htracked, hwhole⟩ := hflushed (.inl rfl)
    dsimp only at h
    split at h
    · rename_i hstat
      cases h
      have hfalse : io.stat = false := by simpa using hstat
      exact ⟨.error (by decide), L', hlater.trans hl, htracked,
        .inr ⟨hrecords, hheader, hnew, .inr (by simp [hfalse])⟩⟩
    · cases h
      refine ⟨nofun, L', hlater.trans hl, ?_, .inr ⟨hrecords, hheader, hnew, .inl rfl⟩⟩
      exact .of_agrees (hentered.with_revision _)
        (fun rev hrev => (Option.some.inj hrev).ge) hwhole

/-! ### Rewriting -/

/-- A rewriting leaves the path or replaces the file by one with a writable header. -/
theorem rewrite_cases {records : Std.TreeMap String ℕ} {history : Option ConsumptionHistory}
    {io : Slot.ReplaceIo} (h : j.rewrite slot records history io = (slot', result)) :
    NoRollback result ∧ ((slot' = slot ∧ result ≠ .ok ()) ∨
        ((∀ h ∈ history, h.isWritable = true) ∧ slot.Follows slot' ∧
          slot'.file? = some (.ofLines (j.fileLines records history)))) := by
  unfold rewrite at h
  dsimp only at h
  split at h
  · cases h
    exact ⟨.error (by decide), .inl ⟨rfl, nofun⟩⟩
  rename_i hwritable
  split at h
  · cases h
    exact ⟨.error (by decide), .inl ⟨rfl, nofun⟩⟩
  have hheader : ∀ h ∈ history, h.isWritable = true := by
    intro header hh
    rw [Option.mem_def] at hh
    rw [hh] at hwritable
    simpa using hwritable
  have hfile := slot.file?_replace (j.fileLines records history) io
  have hfollows := slot.follows_replace (j.fileLines records history) io
  split at h
  · rename_i slot₁ e hreplace
    cases h
    rw [hreplace] at hfile hfollows
    refine ⟨.error (by cases e <;> decide), ?_⟩
    rcases hfile with hfile | ⟨rfl, -⟩
    · exact .inr ⟨hheader, hfollows, hfile⟩
    · exact .inl ⟨rfl, nofun⟩
  · rename_i slot₁ hreplace
    cases h
    rw [hreplace] at hfile hfollows
    refine ⟨nofun, .inr ⟨hheader, hfollows, ?_⟩⟩
    rcases hfile with hfile | ⟨-, hne⟩
    · exact hfile
    · exact absurd rfl hne

theorem heldBy_ofLines (hfile : slot.file? = some (.ofLines L.lines)) : L.HeldBy slot := by
  rw [Ledger.HeldBy, hfile]
  rfl

variable {e : ℕ} {kept : Std.TreeMap String ℕ}

/-- The header after a pruning covers every record that the pruning drops. -/
theorem le_prunedHistory {h : ConsumptionHistory} (hh : h ∈ j.prunedHistory kept) {id : String}
    (he : j.consumed[id]? = some e) (hdropped : kept.contains id = false) :
    e ≤ h.prunedThroughMs := by
  obtain ⟨h₀, -, rfl⟩ := Option.map_eq_some_iff.mp hh
  refine Nat.le_trans ?_ (le_max_right _ _)
  have hmem : e ∈ (j.consumed.filter fun id _ => !kept.contains id).values := by
    rw [Table.values_eq_map, List.mem_map]
    refine ⟨(id, e), Std.TreeMap.mem_toList_iff_getElem?_eq_some.mpr ?_, rfl⟩
    simp [he, hdropped]
  exact (Table.le_foldl_max (f := fun expiresAtMs : ℕ => expiresAtMs)).2 e hmem

/-- Rewriting the records in `kept` under a later header makes a later content, which the
journal with these records agrees with. -/
theorem later_rewrite (hj : Agrees j L.header L.records) (hsize : kept.size ≤ j.consumed.size)
    (hkept : ∀ (id : String) (e : ℕ), kept[id]? = some e → j.consumed[id]? = some e)
    {header : Option ConsumptionHistory} (hwritable : ∀ h ∈ header, h.isWritable = true)
    (hheader : ∀ h ∈ header, ∃ h' ∈ L.header, h.historyId = h'.historyId ∧
      h'.highestIssuerEpoch ≤ h.highestIssuerEpoch ∧ (h'.isBound = true → h.isBound = true))
    (hlater : j.view.Precedes ⟨header, fun id e => kept[id]? = some e⟩)
    (hfollows : slot.Follows slot')
    (hfile : slot'.file? = some (.ofLines (j.fileLines kept header))) :
    ∃ L', Later slot L slot' L' ∧ L'.header = header ∧ L'.records = Ledger.rewritten j kept ∧
      ∀ id e, L'.view.Records id e ↔ kept[id]? = some e := by
  obtain ⟨L', hL'header, hL'records, hlines⟩ :=
    Ledger.exists_rewritten hj hkept hsize hwritable hheader
  have hrecords : ∀ id e, L'.view.Records id e ↔ kept[id]? = some e := by
    intro id e
    simp only [Ledger.view, hL'records]
    constructor
    · rintro ⟨r, hr, rfl, rfl⟩
      exact (Ledger.mem_rewritten.mp hr).1
    · intro he
      exact ⟨⟨id, e, j.bindings[id]?⟩, Ledger.mem_rewritten.mpr ⟨he, rfl⟩, rfl, rfl⟩
  refine ⟨L', ⟨heldBy_ofLines (hlines ▸ hfile), hfollows, ?_, ?_⟩, hL'header, hL'records, hrecords⟩
  · rw [hfile]
    nofun
  intro h hh
  obtain ⟨h', hh', hid, hpruned, hepoch, hscope, hkeep⟩ :=
    (hj.view_precedes.2.trans hlater) h hh
  refine ⟨h', ?_, hid, hpruned, hepoch, hscope, fun id e hr hlt => ?_⟩
  · rw [show L'.view.header = header from hL'header]
    exact hh'
  · exact (hrecords id e).mpr (hkeep id e hr hlt)

/-! ### Pruning -/

theorem getElem?_filter_isRetained {id : String} :
    (j.consumed.filter fun _ expiresAtMs => isRetained authenticatedTimeMs expiresAtMs)[id]? = some e ↔
      j.consumed[id]? = some e ∧ isRetained authenticatedTimeMs e = true := by
  simp [Option.filter_eq_some_iff]

theorem precedes_prunedHistory
    (hkept : ∀ (id : String) (e e' : ℕ), j.consumed[id]? = some e → kept[id]? = some e' → e' = e) :
    j.view.Precedes ⟨j.prunedHistory kept, fun id e => kept[id]? = some e⟩ := by
  intro h hh
  have hh : j.history = some h := hh
  obtain ⟨boundary, hpruned⟩ : ∃ boundary, j.prunedHistory kept =
      some { h with prunedThroughMs := max h.prunedThroughMs boundary } :=
    ⟨_, by rw [prunedHistory, hh, Option.map_some]⟩
  refine ⟨_, hpruned, rfl, le_max_left _ _, le_rfl,
    fun _ => by simp [ConsumptionHistory.sameScope], fun id e he hlt => ?_⟩
  have he : j.consumed[id]? = some e := he
  cases hin : kept[id]? with
  | some e' =>
    rw [hkept id e e' he hin] at hin
    exact hin
  | none =>
    -- a record that was dropped is covered by the header
    have hle := le_prunedHistory hpruned he (by simp [Std.TreeMap.contains_eq_isSome_getElem?, hin])
    exact absurd hlt (not_lt.mpr hle)

/-- The journal that keeps only `kept` agrees with the rewritten file. -/
theorem agrees_rewritten (header : Option ConsumptionHistory) (revision : Option ℕ) :
    Agrees ⟨kept, j.bindings.filter fun id _ => kept.contains id, header, revision⟩ header
      (Ledger.rewritten j kept) where
  consumed id := by
    rw [Ledger.find_rewritten, Option.map_map]
    exact Option.map_id_apply.symm
  bindings id := by
    have hcontains : kept.contains id = kept[id]?.isSome := Std.TreeMap.contains_eq_isSome_getElem?
    rw [Ledger.find_rewritten]
    cases hin : kept[id]? with
    | none => simp [hcontains, hin]
    | some =>
      have hall : ∀ o : Option ConsumedBinding, o.filter (fun _ => true) = o := by
        rintro (_ | b) <;> rfl
      simp [hcontains, hin, hall]
  size := by rw [Ledger.rewritten, List.length_map, Std.TreeMap.length_toList]
  history := rfl

/-- All that `prune` does to a path that holds `L`: nothing, or it drops the records that are not
retained. -/
theorem prune_spec (hL : L.HeldBy slot) (hj : Tracks j slot L) {io : PruneIo}
    (h : j.prune slot authenticatedTimeMs io = (j', slot', result)) :
    NoRollback result ∧ ∃ L', Later slot L slot' L' ∧ Tracks j' slot' L' ∧
      ((L' = L ∧ result ≠ .ok ()) ∨
          ∀ id e, L'.view.Records id e ↔
            L.view.Records id e ∧ isRetained authenticatedTimeMs e = true) := by
  unfold prune at h
  split at h
  · cases h
    exact ⟨.error (by decide), L, .refl hL, hj, .inl ⟨rfl, nofun⟩⟩
  split at h
  · rename_i slot₁ e hsync
    cases h
    obtain ⟨hlater, herror, -⟩ := synchronize_spec hL hj hsync
    exact ⟨.error (herror e rfl), L, hlater, hj.later hL hlater, .inl ⟨rfl, nofun⟩⟩
  rename_i slot₁ j₁ hsync
  obtain ⟨hlater, -, hok⟩ := synchronize_spec hL hj hsync
  obtain ⟨hagrees, htorn, hseen⟩ := hok j₁ rfl
  have htracks : Tracks j₁ slot₁ L := .of_agrees hagrees hseen htorn
  have hrecords : ∀ id e, L.view.Records id e ↔ j₁.consumed[id]? = some e :=
    fun id e => (hagrees.getElem?_eq_some L.nodup).symm
  dsimp only at h
  generalize hpruned : (j₁.consumed.filter fun _ expiresAtMs =>
    isRetained authenticatedTimeMs expiresAtMs) = pruned at h
  have hkept : ∀ (id : String) (e : ℕ), pruned[id]? = some e ↔
      j₁.consumed[id]? = some e ∧ isRetained authenticatedTimeMs e = true := by
    rw [← hpruned]
    exact fun id e => getElem?_filter_isRetained
  split at h
  · rename_i hall
    cases h
    refine ⟨nofun, L, hlater, htracks, .inr fun id e => ⟨fun hr => ⟨hr, ?_⟩, And.left⟩⟩
    -- nothing was dropped, so everything is retained
    rw [← hpruned, Std.TreeMap.size_filter_eq_size_iff] at hall
    rw [hrecords, Std.TreeMap.getElem?_eq_some_iff] at hr
    obtain ⟨hmem, rfl⟩ := hr
    exact hall id hmem
  rcases hrewrite : j₁.rewrite slot₁ pruned (j₁.prunedHistory pruned) io.replace with ⟨slot₂, res⟩
  rw [hrewrite] at h
  obtain ⟨herror, ⟨rfl, hne⟩ | ⟨hwritable, hfollows, hfile⟩⟩ := rewrite_cases hrewrite
  · match res with
    | .error e =>
      cases h
      exact ⟨.error (herror e rfl), L, hlater, htracks, .inl ⟨rfl, nofun⟩⟩
    | .ok () => exact absurd rfl hne
  have hheader : ∀ h ∈ j₁.prunedHistory pruned, ∃ h' ∈ L.header, h.historyId = h'.historyId ∧
      h'.highestIssuerEpoch ≤ h.highestIssuerEpoch ∧ (h'.isBound = true → h.isBound = true) := by
    intro header hh
    obtain ⟨h₀, hh₀, rfl⟩ := Option.map_eq_some_iff.mp hh
    exact ⟨h₀, hagrees.history ▸ hh₀, rfl, le_rfl, id⟩
  have hprecedes : j₁.view.Precedes ⟨j₁.prunedHistory pruned, fun id e => pruned[id]? = some e⟩ := by
    refine precedes_prunedHistory fun id e e' he hin => ?_
    exact Option.some.inj (((hkept id e').mp hin).1.symm.trans he)
  obtain ⟨L', hl, hL'header, hL'records, hL'view⟩ := later_rewrite hagrees
    (hpruned ▸ Std.TreeMap.size_filter_le_size) (fun id e he => ((hkept id e).mp he).1) hwritable
    hheader hprecedes hfollows hfile
  have hdropped : ∀ id e, L'.view.Records id e ↔
      L.view.Records id e ∧ isRetained authenticatedTimeMs e = true := by
    intro id e
    rw [hL'view, hkept, hrecords]
  have hwhole : ∀ f ∈ slot₂.file?, f.torn = 0 := by
    intro f hf
    obtain rfl := Option.mem_unique hfile hf
    rfl
  match res with
  | .error e =>
    cases h
    exact ⟨.error (herror e rfl), L', hlater.trans hl, htracks.later hlater.held hl, .inr hdropped⟩
  | .ok () =>
    have hagrees' : ∀ revision, Agrees ⟨pruned, j₁.bindings.filter fun id _ => pruned.contains id,
        j₁.prunedHistory pruned, revision⟩ L'.header L'.records := by
      intro revision
      rw [hL'header, hL'records]
      exact agrees_rewritten _ revision
    dsimp only at h
    split at h
    · cases h
      refine ⟨.error (by decide), L', hlater.trans hl, ?_, .inr hdropped⟩
      exact .of_agrees (hagrees' _)
        (fun r hr => (hseen r hr).trans hl.follows.stamp_le) hwhole
    · cases h
      refine ⟨nofun, L', hlater.trans hl, ?_, .inr hdropped⟩
      exact .of_agrees (hagrees' _) (fun r hr => (Option.some.inj hr).ge) hwhole

/-! ### Binding and starting -/

/-- All that `bind` does to a path that holds `L`: it may raise or bind the header. -/
theorem bind_spec (hL : L.HeldBy slot) {pin : PinnedIssuer} {io : BindIo}
    {result : Except String ℕ} (h : bind slot pin io = (slot', result)) :
    NoRollback result ∧ ∃ L', Later slot L slot' L' ∧
      ∀ id e, L'.view.Records id e ↔ L.view.Records id e := by
  unfold bind at h
  split at h
  · cases h
    exact ⟨.error (by decide), L, .refl hL, fun _ _ => Iff.rfl⟩
  have hlater := later_readLocked hL io.read
  split at h
  · rename_i slot₁ e hread
    cases h
    rw [hread] at hlater
    exact ⟨.error (readLocked_error hread), L, hlater, fun _ _ => Iff.rfl⟩
  rename_i slot₁ j hread
  rw [hread] at hlater
  obtain ⟨hagrees, -, -⟩ := readLocked_spec hL hread
  split at h
  · cases h
    exact ⟨nofun, L, hlater, fun _ _ => Iff.rfl⟩
  rename_i header hheader
  split at h
  · cases h
    exact ⟨.error (by decide), L, hlater, fun _ _ => Iff.rfl⟩
  rename_i hscope
  split at h
  · cases h
    exact ⟨.error (by decide), L, hlater, fun _ _ => Iff.rfl⟩
  rename_i hunused
  split at h
  · cases h
    exact ⟨nofun, L, hlater, fun _ _ => Iff.rfl⟩
  -- a header that is bound already is bound to this pin
  have hsame : header.isBound = true → header.tenantId = pin.tenantId ∧
      header.nodeId = pin.nodeId ∧ header.issuerKeyId = pin.keyId := by
    intro hbound
    simpa [hbound, boundElsewhere, and_assoc] using hscope
  rcases hrewrite : j.rewrite slot₁ j.consumed (some (boundTo header pin)) io.replace
    with ⟨slot₂, res⟩
  rw [hrewrite] at h
  have hstop : slot' = slot₂ ∧ ∀ e, result = .error e → res = .error e := by
    cases res with
    | error =>
      cases h
      refine ⟨rfl, ?_⟩
      rintro _ ⟨⟩
      rfl
    | ok =>
      cases h
      exact ⟨rfl, by rintro _ ⟨⟩⟩
  obtain ⟨rfl, hresult⟩ := hstop
  obtain ⟨herror, hcases⟩ := rewrite_cases hrewrite
  refine ⟨fun e he => herror e (hresult e he), ?_⟩
  obtain ⟨rfl, -⟩ | ⟨hwritable, hfollows, hfile⟩ := hcases
  · exact ⟨L, hlater, fun _ _ => Iff.rfl⟩
  have hcovers : ∀ h ∈ some (boundTo header pin), ∃ h' ∈ L.header, h.historyId = h'.historyId ∧
      h'.highestIssuerEpoch ≤ h.highestIssuerEpoch ∧ (h'.isBound = true → h.isBound = true) := by
    rintro _ ⟨⟩
    refine ⟨header, hagrees.history ▸ hheader, rfl, le_max_left _ _, fun hbound => ?_⟩
    rw [ConsumptionHistory.isBound, boundTo, ← (hsame hbound).1]
    exact hbound
  have hprecedes : j.view.Precedes
      ⟨some (boundTo header pin), fun id e => j.consumed[id]? = some e⟩ := by
    intro h hh
    obtain rfl : header = h := Option.mem_unique hheader hh
    refine ⟨_, rfl, rfl, le_rfl, le_max_left _ _, fun hbound => ?_, fun id e he _ => he⟩
    obtain ⟨htenant, hnode, hkey⟩ := hsame hbound
    simp [ConsumptionHistory.sameScope, boundTo, htenant, hnode, hkey]
  obtain ⟨L', hl, -, -, hL'view⟩ := later_rewrite hagrees (le_rfl) (fun _ _ he => he) hwritable
    hcovers hprecedes hfollows hfile
  refine ⟨L', hlater.trans hl, fun id e => ?_⟩
  rw [hL'view]
  exact hagrees.getElem?_eq_some L.nodup

theorem hasNonce_genesis (h : nonce.length = 32) : (genesis nonce).hasNonce = true := by
  have hne : nonce ≠ [] := by
    rintro rfl
    cases h
  have hread := Fleet.base64UrlDecode_base64UrlEncode hne
  rw [h] at hread
  simp [ConsumptionHistory.hasNonce, genesis, hread, h]

/-- The content of a journal that was just initialized. -/
def genesisLedger (nonce : List UInt8) (hnonce : nonce.length = 32) : Ledger where
  header := some (genesis nonce)
  records := []
  nodup := List.nodup_nil
  readable := Ledger.empty.readable
  writable := by
    rintro _ ⟨⟩
    rfl
  named := by
    rintro _ ⟨⟩
    exact hasNonce_genesis hnonce
  bound := by simp
  pinned := by simp
  bounded := Nat.zero_le _

theorem records_of_absent (hL : L.HeldBy slot) (h : slot.file? = none) :
    L.header = none ∧ L.records = [] := by
  rw [Ledger.HeldBy, h] at hL
  have hnil : L.lines = [] := by simpa [Storage.File.empty] using hL.symm
  simpa [Ledger.lines] using hnil

/-- All that `history::initialize` does to a path that holds `L`: nothing, or it adds a header
where no file was. -/
theorem initializeConsumptionHistory_spec (hL : L.HeldBy slot) (hnonce : nonce.length = 32)
    {io : GenesisIo} (h : initializeConsumptionHistory slot nonce io = (slot', result)) :
    NoRollback result ∧ ∃ L', Later slot L slot' L' ∧
      ∀ id e, L'.view.Records id e ↔ L.view.Records id e := by
  unfold initializeConsumptionHistory at h
  iterate 5
    split at h
    · cases h
      exact ⟨.error (by decide), L, .refl hL, fun _ _ => Iff.rfl⟩
  rename_i hlinked
  have habsent : slot.file? = none := by
    cases hf : slot.file? with
    | none => rfl
    | some => simp [hf] at hlinked
  obtain ⟨hheader, hrecords⟩ := records_of_absent hL habsent
  have hlater : ∀ slot₁ : Slot JournalLine, slot.stamp < slot₁.stamp →
      slot₁.file? = some (.ofLines [.history (genesis nonce)]) →
      Later slot L slot₁ (genesisLedger nonce hnonce) := by
    intro slot₁ hstamp hfile
    refine ⟨heldBy_ofLines hfile, .inr hstamp, fun hnone => ?_, fun h hh => ?_⟩
    · rw [hfile] at hnone
      cases hnone
    · have hsome : L.header = some h := hh
      rw [hheader] at hsome
      cases hsome
  have hsame : ∀ id e, (genesisLedger nonce hnonce).view.Records id e ↔ L.view.Records id e := by
    intro id e
    simp [Ledger.view, hrecords, genesisLedger]
  split at h <;> cases h
  · exact ⟨nofun, _, hlater _ (Nat.lt_succ_self _) rfl, hsame⟩
  · exact ⟨.error (by decide), _, hlater _ (Nat.lt_succ_self _) rfl, hsame⟩

theorem isRetained_eq_false_iff (h : authenticatedTimeMs < 2 ^ 64) :
    isRetained authenticatedTimeMs e = false ↔ e + grantReplayRetentionMs ≤ authenticatedTimeMs := by
  refine ⟨le_of_isRetained_eq_false, fun hle => ?_⟩
  have hmax : e + grantReplayRetentionMs ≤ U64.max := by
    rw [U64.max]
    omega
  have hadd : U64.checkedAdd e grantReplayRetentionMs = some (e + grantReplayRetentionMs) := by
    rw [U64.checkedAdd, if_pos hmax]
  rw [isRetained, hadd, Option.all_some, decide_eq_false_iff_not]
  exact not_lt.mpr hle

end GrantJournal

/-! ### One step -/

/-- The call fails after its line is in the file. -/
def WriterEvent.leavesUnreported (s : SharedJournal) : WriterEvent → Bool
  | .record process r nodeId io =>
    (s.writer process).any fun j => j.leavesUnreported s.slot r nodeId io
  | _ => false

namespace SharedJournal

open GrantJournal

/-- A reader of the file finds the record. -/
def Durable (s : SharedJournal) (grantId : String) (expiresAtMs : ℕ) : Prop :=
  ∃ binding, some (.consumption grantId expiresAtMs binding) ∈ (s.slot.file?.getD .empty).lines

/-- The header a reader of the file finds. -/
def header? (s : SharedJournal) : Option ConsumptionHistory :=
  match (s.slot.file?.getD .empty).lines with
  | some (.history header) :: _ => some header
  | _ => none

/-- The path holds `L`, and every process tracks it. -/
structure Inv (s : SharedJournal) (L : Ledger) : Prop where
  held : L.HeldBy s.slot
  tracks : ∀ process j, s.writer process = some j → Tracks j s.slot L

variable {s : SharedJournal} {L L' : Ledger} {e : WriterEvent}

theorem Inv.durable_iff (h : s.Inv L) (id : String) (e : ℕ) :
    s.Durable id e ↔ L.view.Records id e := by
  rw [Durable, h.held]
  constructor
  · rintro ⟨b, hmem⟩
    obtain ⟨line, hline, heq⟩ := List.mem_map.mp hmem
    cases heq
    rcases List.mem_append.mp hline with hheader | hrecord
    · simp at hheader
    · obtain ⟨r, hr, hrline⟩ := List.mem_map.mp hrecord
      simp only [Consumption.line, JournalLine.consumption.injEq] at hrline
      exact ⟨r, hr, hrline.1, hrline.2.1⟩
  · rintro ⟨r, hr, rfl, rfl⟩
    exact ⟨r.binding, List.mem_map_of_mem (List.mem_append_right _ (List.mem_map_of_mem hr))⟩

theorem Inv.header?_eq (h : s.Inv L) : s.header? = L.header := by
  rw [header?, h.held, Ledger.lines]
  cases hh : L.header with
  | some => rfl
  | none => cases hr : L.records <;> rfl

/-- What the call of an event did to the records. -/
def Effect (s : SharedJournal) (e : WriterEvent) (output : Option (Except String Unit))
    (L L' : Ledger) : Prop :=
  match e with
  | .record _ r _ _ =>
    (output ≠ some (.ok ()) ∧ ∀ id e, L'.view.Records id e ↔ L.view.Records id e) ∨
      ((output = some (.ok ()) ∨ e.leavesUnreported s = true) ∧
        (∀ e, ¬ L.view.Records r.grantId e) ∧
        ∀ id e, L'.view.Records id e ↔ L.view.Records id e ∨ (id = r.grantId ∧ e = r.expiresAtMs))
  | .prune _ authenticatedTimeMs _ =>
    (output ≠ some (.ok ()) ∧ ∀ id e, L'.view.Records id e ↔ L.view.Records id e) ∨
      ∀ id e, L'.view.Records id e ↔
        L.view.Records id e ∧ isRetained authenticatedTimeMs e = true
  | _ => ∀ id e, L'.view.Records id e ↔ L.view.Records id e

theorem Inv.later (h : s.Inv L) {slot : Slot JournalLine} (hl : Later s.slot L slot L') :
    Inv { s with slot := slot } L' :=
  ⟨hl.held, fun process j hj => (h.tracks process j hj).later h.held hl⟩

theorem Inv.set (h : s.Inv L) {slot : Slot JournalLine} {j : GrantJournal} {process : ℕ}
    (hl : Later s.slot L slot L') (hj : Tracks j slot L') : Inv (s.set slot process j) L' := by
  refine ⟨hl.held, fun process' j' hj' => ?_⟩
  rw [SharedJournal.set] at hj' ⊢
  dsimp only at hj' ⊢
  by_cases hp : process' = process
  · subst hp
    rw [Function.update_self] at hj'
    exact Option.some.inj hj' ▸ hj
  · rw [Function.update_of_ne hp] at hj'
    exact (h.tracks process' j' hj').later h.held hl

theorem records_push (hrecords : L'.records = L.records ++ [r]) (id : String) (e : ℕ) :
    L'.view.Records id e ↔ L.view.Records id e ∨ (id = r.grantId ∧ e = r.expiresAtMs) := by
  simp only [Ledger.view, hrecords, List.mem_append, List.mem_singleton]
  constructor
  · rintro ⟨r', hr' | rfl, rfl, rfl⟩
    · exact .inl ⟨r', hr', rfl, rfl⟩
    · exact .inr ⟨rfl, rfl⟩
  · rintro (⟨r', hr', rfl, rfl⟩ | ⟨rfl, rfl⟩)
    · exact ⟨r', .inl hr', rfl, rfl⟩
    · exact ⟨r, .inr rfl, rfl, rfl⟩

/-- A call goes from a ledger to a later one, and reports no rollback. -/
theorem inv_step (h : s.Inv L) (he : e.IsCall) :
    ∃ L', (s.step e).1.Inv L' ∧ Later s.slot L (s.step e).1.slot L' ∧
      (∀ err, (s.step e).2 = some (.error err) → err ∉ rollbackErrors) ∧
      s.Effect e (s.step e).2 L L' := by
  cases e with
  | initializeConsumptionHistory nonce io =>
    rcases hcall : initializeConsumptionHistory s.slot nonce io with ⟨slot, r⟩
    obtain ⟨herror, L', hl, hrecords⟩ := initializeConsumptionHistory_spec h.held he hcall
    simp only [step, hcall]
    exact ⟨L', h.later hl, hl, fun err herr => herror err (Option.some.inj herr), hrecords⟩
  | «open» process lock io =>
    have hlater := later_readLocked h.held io
    simp only [step]
    split
    · refine ⟨L, h, .refl h.held, ?_, fun _ _ => Iff.rfl⟩
      rintro _ ⟨⟩
      decide
    split
    · rename_i slot err hread
      rw [hread] at hlater
      refine ⟨L, h.later hlater, hlater, ?_, fun _ _ => Iff.rfl⟩
      rintro _ ⟨⟩
      exact readLocked_error hread
    · rename_i slot j hread
      rw [hread] at hlater
      obtain ⟨hagrees, htorn, hseen⟩ := readLocked_spec h.held hread
      exact ⟨L, h.set hlater (.of_agrees hagrees hseen htorn), hlater, nofun, fun _ _ => Iff.rfl⟩
  | record process r nodeId io =>
    cases hj : s.writer process with
    | none =>
      simp only [step, hj]
      exact ⟨L, h, .refl h.held, nofun, .inl ⟨nofun, fun _ _ => Iff.rfl⟩⟩
    | some j =>
      rcases hcall : j.record s.slot r.grantId r.expiresAtMs r.binding nodeId io with ⟨j', slot, result⟩
      obtain ⟨herror, L', hl, htracks, hcases⟩ :=
        record_spec h.held (h.tracks process j hj) he.1 he.2 hcall
      simp only [step, hj, hcall]
      refine ⟨L', h.set hl htracks, hl, fun err herr => herror err (Option.some.inj herr), ?_⟩
      rcases hcases with ⟨rfl, hne, -, -, -⟩ | ⟨hrecords, -, hnew, hdone⟩
      · exact .inl ⟨fun heq => hne (Option.some.inj heq), fun _ _ => Iff.rfl⟩
      refine .inr ⟨?_, ?_, records_push hrecords⟩
      · rcases hdone with rfl | hunreported
        · exact .inl rfl
        · exact .inr (by simpa [WriterEvent.leavesUnreported, hj] using hunreported)
      · rintro e ⟨r', hr', hid, -⟩
        exact hnew (hid ▸ List.mem_map_of_mem hr')
  | prune process authenticatedTimeMs io =>
    cases hj : s.writer process with
    | none =>
      simp only [step, hj]
      exact ⟨L, h, .refl h.held, nofun, .inl ⟨nofun, fun _ _ => Iff.rfl⟩⟩
    | some j =>
      rcases hcall : j.prune s.slot authenticatedTimeMs io with ⟨j', slot, result⟩
      obtain ⟨herror, L', hl, htracks, hcases⟩ := prune_spec h.held (h.tracks process j hj) hcall
      simp only [step, hj, hcall]
      refine ⟨L', h.set hl htracks, hl, fun err herr => herror err (Option.some.inj herr), ?_⟩
      rcases hcases with ⟨rfl, hne⟩ | hdropped
      · exact .inl ⟨fun heq => hne (Option.some.inj heq), fun _ _ => Iff.rfl⟩
      · exact .inr hdropped
  | bind pin io =>
    rcases hcall : GrantJournal.bind s.slot pin io with ⟨slot, r⟩
    obtain ⟨herror, L', hl, hrecords⟩ := bind_spec h.held hcall
    simp only [step, hcall]
    refine ⟨L', h.later hl, hl, fun err herr => herror err ?_, hrecords⟩
    cases r with
    | error => exact congrArg _ (Except.error.inj (Option.some.inj herr))
    | ok => cases Option.some.inj herr

/-! ### The size of the file -/

/-- The file is one that `read_locked` does not find too long. -/
def Fits (slot : Slot JournalLine) : Prop := slot.Fits JournalLine.size grantJournalMaxBytes

variable {slot slot' : Slot JournalLine} {j j' : GrantJournal}

theorem fits_readLocked (h : Fits slot) (io : ReadIo) : Fits (readLocked slot io).1 := by
  rw [readLocked_fst]
  exact Slot.fits_read h _ io.file

theorem fits_synchronize (h : Fits slot) (j : GrantJournal) (io : SyncIo) :
    Fits (j.synchronize slot io).1 := by
  rcases j.synchronize_fst slot io with heq | heq <;> rw [heq]
  · exact h
  · exact fits_readLocked h io.read

theorem fits_rewrite (h : Fits slot) (j : GrantJournal) (records : Std.TreeMap String ℕ)
    (history : Option ConsumptionHistory) (io : Slot.ReplaceIo) :
    Fits (j.rewrite slot records history io).1 := by
  unfold rewrite
  dsimp only
  split
  · exact h
  split
  · exact h
  rename_i hsize
  have hreplace : Fits (slot.replace (j.fileLines records history) io).1 := by
    cases hcreate : io.create with
    | false => simpa [Slot.replace, hcreate] using h
    | true =>
      rcases slot.file?_replace (j.fileLines records history) io with hfile | ⟨hsame, -⟩
      · intro f hf
        rw [hfile, Option.mem_some_iff] at hf
        subst hf
        simpa [hcreate, Storage.File.length, Storage.File.ofLines, Function.comp_def] using hsize
      · rw [hsame]
        exact h
  split <;> rename_i heq <;> rw [heq] at hreplace <;> exact hreplace

theorem fits_record (h : Fits slot) {io : RecordIo}
    (hrecord : j.record slot r.grantId r.expiresAtMs r.binding nodeId io = (j', slot', result)) :
    Fits slot' := by
  have hsync := fits_synchronize h j io.sync
  obtain ⟨-, rfl, -⟩ | ⟨err, hs, -, -⟩ | ⟨hs, -⟩ | ⟨slot₁, j₁, res, hs, -, ha, -⟩ :=
    record_cases hrecord
  · exact h
  · rwa [hs] at hsync
  · rwa [hs] at hsync
  · rw [hs] at hsync
    have happend := Slot.fits_append hsync (.consumption r.grantId r.expiresAtMs r.binding) io.append
    rwa [ha] at happend

theorem fits_prune (h : Fits slot) {io : PruneIo}
    (hprune : j.prune slot authenticatedTimeMs io = (j', slot', result)) : Fits slot' := by
  have hsync := fits_synchronize h j io.sync
  unfold prune at hprune
  split at hprune
  · cases hprune
    exact h
  split at hprune
  · rename_i hs
    cases hprune
    rwa [hs] at hsync
  rename_i slot₁ j₁ hs
  rw [hs] at hsync
  dsimp only at hprune
  split at hprune
  · cases hprune
    exact hsync
  have hrewrite := fits_rewrite hsync j₁ (j₁.consumed.filter fun _ expiresAtMs =>
    isRetained authenticatedTimeMs expiresAtMs) (j₁.prunedHistory (j₁.consumed.filter
      fun _ expiresAtMs => isRetained authenticatedTimeMs expiresAtMs)) io.replace
  split at hprune <;> rename_i hw <;> rw [hw] at hrewrite
  · cases hprune
    exact hrewrite
  · split at hprune <;> cases hprune <;> exact hrewrite

theorem fits_bind (h : Fits slot) {pin : PinnedIssuer} {io : BindIo} {result : Except String ℕ}
    (hbind : GrantJournal.bind slot pin io = (slot', result)) : Fits slot' := by
  have hread := fits_readLocked h io.read
  unfold GrantJournal.bind at hbind
  split at hbind
  · cases hbind
    exact h
  split at hbind
  · rename_i hr
    cases hbind
    rwa [hr] at hread
  rename_i slot₁ j hr
  rw [hr] at hread
  split at hbind
  · cases hbind
    exact hread
  rename_i header _
  iterate 3
    split at hbind
    · cases hbind
      exact hread
  have hrewrite := fits_rewrite hread j j.consumed (some (boundTo header pin)) io.replace
  split at hbind <;> rename_i hw <;> rw [hw] at hrewrite <;> cases hbind <;> exact hrewrite

theorem utf8ByteSize_fields (p₀ p₁ p₂ p₃ p₄ p₅ p₆ a b c d e f : String) :
    (p₀ ++ a ++ p₁ ++ b ++ p₂ ++ c ++ p₃ ++ d ++ p₄ ++ e ++ p₅ ++ f ++ p₆).utf8ByteSize =
      (p₀.utf8ByteSize + p₁.utf8ByteSize + p₂.utf8ByteSize + p₃.utf8ByteSize + p₄.utf8ByteSize +
        p₅.utf8ByteSize + p₆.utf8ByteSize) +
      (a.utf8ByteSize + b.utf8ByteSize + c.utf8ByteSize + d.utf8ByteSize + e.utf8ByteSize +
        f.utf8ByteSize) := by
  simp only [String.utf8ByteSize_append]
  omega

theorem utf8ByteSize_names : "\x7b\"history_version\":1,\"history_id\":\"".utf8ByteSize +
    "\",\"tenant_id\":\"".utf8ByteSize + "\",\"node_id\":\"".utf8ByteSize +
    "\",\"issuer_key_id\":\"".utf8ByteSize + "\",\"pruned_through_ms\":".utf8ByteSize +
    ",\"highest_issuer_epoch\":".utf8ByteSize + "\x7d".utf8ByteSize = 129 := by decide +kernel

/-- The size of a header: the names of its fields and their values. -/
theorem utf8ByteSize_line (h : ConsumptionHistory) : h.line.utf8ByteSize =
    129 + (h.historyId.utf8ByteSize + h.tenantId.utf8ByteSize + h.nodeId.utf8ByteSize +
      h.issuerKeyId.utf8ByteSize + (toString h.prunedThroughMs).utf8ByteSize +
      (toString h.highestIssuerEpoch).utf8ByteSize) := by
  delta ConsumptionHistory.line
  rw [utf8ByteSize_fields, utf8ByteSize_names]

theorem utf8ByteSize_zero : (toString 0).utf8ByteSize = 1 := by decide +kernel

theorem isAscii_base64 : ∀ c ∈ Fleet.base64Alphabet, Utf8.IsAscii c := by decide

theorem size_genesis (h : nonce.length = 32) :
    JournalLine.size (.history (genesis nonce)) ≤ grantJournalMaxBytes := by
  have hlength := Fleet.length_base64UrlEncode_le nonce
  have hid : (genesis nonce).historyId.utf8ByteSize ≤ 64 := by
    rw [Utf8.utf8ByteSize_eq, genesis, String.toList_ofList,
      Utf8.length_encode_of_isAscii fun c hc => isAscii_base64 c (Fleet.mem_base64UrlEncode hc)]
    omega
  have hsize : JournalLine.size (.history (genesis nonce)) =
      129 + ((genesis nonce).historyId.utf8ByteSize + 0 + 0 + 0 + 1 + 1) + 1 := by
    rw [JournalLine.size, utf8ByteSize_line]
    exact congrArg (129 + · + 1) (by rw [← utf8ByteSize_zero]; rfl)
  rw [hsize, grantJournalMaxBytes]
  omega

theorem fits_initialize (h : Fits slot) (hnonce : nonce.length = 32) {io : GenesisIo}
    (hinit : initializeConsumptionHistory slot nonce io = (slot', result)) : Fits slot' := by
  have hpublished : ∀ slot₁ : Slot JournalLine,
      slot₁.file? = some (.ofLines [.history (genesis nonce)]) → Fits slot₁ := by
    intro slot₁ hfile f hf
    rw [hfile, Option.mem_some_iff] at hf
    subst hf
    simpa [Storage.File.length, Storage.File.ofLines] using size_genesis hnonce
  unfold initializeConsumptionHistory at hinit
  split_ifs at hinit <;> cases hinit
  · exact h
  · exact h
  · exact h
  · exact h
  · exact h
  all_goals exact hpublished _ rfl

theorem fits_step (h : Fits s.slot) (he : e.IsCall) : Fits (s.step e).1.slot := by
  cases e with
  | initializeConsumptionHistory nonce io =>
    rcases hcall : initializeConsumptionHistory s.slot nonce io with ⟨slot, r⟩
    simp only [step, hcall]
    exact fits_initialize h he hcall
  | «open» process lock io =>
    have hread := fits_readLocked h io
    simp only [step]
    split
    · exact h
    split <;> rename_i heq <;> rw [heq] at hread <;> exact hread
  | record process r nodeId io =>
    cases hj : s.writer process with
    | none => simpa only [step, hj] using h
    | some j =>
      rcases hcall : j.record s.slot r.grantId r.expiresAtMs r.binding nodeId io with ⟨j', slot, result⟩
      simp only [step, hj, hcall]
      exact fits_record h hcall
  | prune process authenticatedTimeMs io =>
    cases hj : s.writer process with
    | none => simpa only [step, hj] using h
    | some j =>
      rcases hcall : j.prune s.slot authenticatedTimeMs io with ⟨j', slot, result⟩
      simp only [step, hj, hcall]
      exact fits_prune h hcall
  | bind pin io =>
    rcases hcall : GrantJournal.bind s.slot pin io with ⟨slot, r⟩
    simp only [step, hcall]
    exact fits_bind h hcall

end SharedJournal

end BlindPass.Broker
