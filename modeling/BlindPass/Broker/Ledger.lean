import BlindPass.Broker.GrantJournal
import BlindPass.Fleet.Base64

/-!
# What a journal file holds

A journal file that only the broker's own writers touched holds a header or none, and one
consumption for each grant. A `Ledger` is such content, with what the writers guarantee of it.
A reader of its lines gets exactly what it holds.

Two contents at different times are compared by what a process may have seen of them:
`View.Precedes` is the relation that the rollback check of a synchronisation tests.
-/

namespace BlindPass.Broker

open Storage (Slot)

/-- A consumption, as its line has it. -/
structure Consumption where
  grantId : String
  expiresAtMs : ℕ
  binding : Option ConsumedBinding
  deriving DecidableEq

namespace Consumption

/-- The line of the consumption. -/
def line (r : Consumption) : JournalLine := .consumption r.grantId r.expiresAtMs r.binding

/-- The line can be read back: `parse_journal_line` accepts every value in it. -/
def isReadable (r : Consumption) : Bool :=
  Fleet.isValidOpaqueId r.grantId && r.expiresAtMs != 0 && decide (r.expiresAtMs < 2 ^ 64) &&
    r.binding.all fun b => Fleet.isValidOpaqueId b.operationId &&
      decide (1 ≤ b.issuerEpoch ∧ b.issuerEpoch ≤ Fleet.maxSafeInteger)

/-- The consumption of a grant. -/
def find (records : List Consumption) (id : String) : Option Consumption :=
  records.find? fun r => r.grantId == id

variable {records : List Consumption} {r : Consumption} {id : String}

theorem find_eq_some (hnodup : (records.map grantId).Nodup) :
    find records id = some r ↔ r ∈ records ∧ r.grantId = id := by
  constructor
  · intro h
    have hid := List.find?_some h
    exact ⟨List.mem_of_find?_eq_some h, by simpa using hid⟩
  · rintro ⟨hr, rfl⟩
    induction records with
    | nil => exact absurd hr List.not_mem_nil
    | cons r' rest ih =>
      rw [List.map_cons, List.nodup_cons] at hnodup
      rcases List.mem_cons.mp hr with rfl | hrest
      · simp [find]
      have hne : r'.grantId ≠ r.grantId := by
        intro heq
        exact hnodup.1 (heq ▸ List.mem_map_of_mem hrest)
      rw [find, List.find?_cons_of_neg (by simpa using hne)]
      exact ih hnodup.2 hrest

theorem find_eq_none : find records id = none ↔ id ∉ records.map grantId := by
  simp only [find, List.find?_eq_none, beq_iff_eq, List.mem_map, not_exists, not_and]

theorem find_append_self (h : r.grantId ∉ records.map grantId) :
    find (records ++ [r]) r.grantId = some r := by
  have hnone := find_eq_none.mpr h
  rw [find] at hnone
  simp [find, List.find?_append, hnone]

theorem find_append_of_ne (h : r.grantId ≠ id) : find (records ++ [r]) id = find records id := by
  simp [find, List.find?_append, List.find?_cons_of_neg, h]

end Consumption

/-- The id of the header is the text of 32 bytes: the check `line` makes on it. -/
def ConsumptionHistory.hasNonce (h : ConsumptionHistory) : Bool :=
  (Fleet.base64UrlDecode h.historyId.toList 32).any fun bytes =>
    bytes.length == 32 && Fleet.base64UrlEncode bytes == h.historyId.toList

/-- The content of a journal file that only the writers touched. -/
structure Ledger where
  header : Option ConsumptionHistory
  records : List Consumption
  nodup : (records.map Consumption.grantId).Nodup
  readable : ∀ r ∈ records, r.isReadable
  writable : ∀ h ∈ header, h.isWritable
  named : ∀ h ∈ header, h.hasNonce
  bound : ∀ h ∈ header, records ≠ [] → h.isBound
  pinned : ∀ h ∈ header, ∀ r ∈ records, ∀ b ∈ r.binding, b.issuerEpoch ≤ h.highestIssuerEpoch
  bounded : records.length ≤ grantJournalMaxRecords

namespace Ledger

/-- The content of a file just created. -/
def empty : Ledger where
  header := none
  records := []
  nodup := List.nodup_nil
  readable := by simp
  writable := by simp
  named := by simp
  bound := by simp
  pinned := by simp
  bounded := zero_le

/-- The lines of the file. -/
def lines (L : Ledger) : List JournalLine :=
  (L.header.map JournalLine.history).toList ++ L.records.map Consumption.line

end Ledger

namespace GrantJournal

/-- The journal in memory is what a reader of the header and the records gets. -/
structure Agrees (j : GrantJournal) (header : Option ConsumptionHistory)
    (records : List Consumption) : Prop where
  consumed : ∀ id : String, j.consumed[id]? = (Consumption.find records id).map (·.expiresAtMs)
  bindings : ∀ id : String, j.bindings[id]? = (Consumption.find records id).bind (·.binding)
  size : j.consumed.size = records.length
  history : j.history = header

variable {j j' : GrantJournal} {header : Option ConsumptionHistory} {records : List Consumption}

theorem agrees_empty : Agrees empty none [] where
  consumed id := by simp [empty, Consumption.find]
  bindings id := by simp [empty, Consumption.find]
  size := by simp [empty]
  history := rfl

theorem Agrees.with_revision (h : Agrees j header records) (revision : Option ℕ) :
    Agrees { j with revision := revision } header records :=
  ⟨h.consumed, h.bindings, h.size, h.history⟩

theorem Agrees.contains_eq_false (h : Agrees j header records) {id : String} :
    j.consumed.contains id = false ↔ id ∉ records.map Consumption.grantId := by
  rw [Std.TreeMap.contains_eq_isSome_getElem?, h.consumed, ← Consumption.find_eq_none]
  cases Consumption.find records id <;> simp

theorem Agrees.getElem?_eq_some (h : Agrees j header records)
    (hnodup : (records.map Consumption.grantId).Nodup) {id : String} {e : ℕ} :
    j.consumed[id]? = some e ↔ ∃ r ∈ records, r.grantId = id ∧ r.expiresAtMs = e := by
  rw [h.consumed, Option.map_eq_some_iff]
  constructor
  · rintro ⟨r, hr, rfl⟩
    obtain ⟨hmem, hid⟩ := (Consumption.find_eq_some hnodup).mp hr
    exact ⟨r, hmem, hid, rfl⟩
  · rintro ⟨r, hmem, hid, rfl⟩
    exact ⟨r, (Consumption.find_eq_some hnodup).mpr ⟨hmem, hid⟩, rfl⟩

@[simp] theorem history_enter_of_le {id : String} {e : ℕ} {b : Option ConsumedBinding}
    (h : ∀ h ∈ j.history, ∀ b' ∈ b, b'.issuerEpoch ≤ h.highestIssuerEpoch) :
    (j.enter id e b).history = j.history := by
  cases b with
  | none => rfl
  | some b =>
    cases hh : j.history with
    | none => simp [enter, hh]
    | some header =>
      have hle := h header hh b rfl
      simp [enter, hh, Nat.max_eq_left hle]

/-- Entering a consumption of a grant not seen yet. -/
theorem Agrees.enter (h : Agrees j header records) {r : Consumption}
    (hnew : r.grantId ∉ records.map Consumption.grantId)
    (hpinned : ∀ h ∈ header, ∀ b ∈ r.binding, b.issuerEpoch ≤ h.highestIssuerEpoch) :
    Agrees (j.enter r.grantId r.expiresAtMs r.binding) header (records ++ [r]) where
  consumed id := by
    rw [consumed_enter, Std.TreeMap.getElem?_insert]
    by_cases hid : r.grantId = id
    · subst hid
      simp [Consumption.find_append_self hnew]
    · simp [hid, Consumption.find_append_of_ne hid, h.consumed]
  bindings id := by
    have hnone : j.bindings[r.grantId]? = none := by
      rw [h.bindings, Consumption.find_eq_none.mpr hnew, Option.bind_none]
    by_cases hid : r.grantId = id
    · subst hid
      rw [Consumption.find_append_self hnew, Option.bind_some]
      cases hb : r.binding with
      | none => simpa [GrantJournal.enter] using hnone
      | some => simp [GrantJournal.enter]
    · rw [Consumption.find_append_of_ne hid, ← h.bindings]
      cases r.binding with
      | none => rfl
      | some => simp [GrantJournal.enter, Std.TreeMap.getElem?_insert, hid]
  size := by
    rw [consumed_enter, Std.TreeMap.size_insert, h.contains_eq_false.mpr hnew, h.size]
    simp
  history := by
    rw [history_enter_of_le (h.history ▸ hpinned), h.history]

/-- Reading the lines of consumptions that are not in the journal yet enters them one by one. -/
theorem agrees_readLines (index : ℕ) {rest : List Consumption} (h : Agrees j header records)
    (hnodup : ((records ++ rest).map Consumption.grantId).Nodup)
    (hpinned : ∀ h ∈ header, ∀ r ∈ rest, ∀ b ∈ r.binding, b.issuerEpoch ≤ h.highestIssuerEpoch) :
    ∃ j', readLines index ((rest.map Consumption.line).map some) j = .ok j' ∧
      Agrees j' header (records ++ rest) ∧ j'.revision = j.revision := by
  induction rest generalizing j records index with
  | nil => exact ⟨j, rfl, by simpa using h, rfl⟩
  | cons r rest ih =>
    have hsplit : records ++ r :: rest = (records ++ [r]) ++ rest := by simp
    have hnew : r.grantId ∉ records.map Consumption.grantId := by
      intro hmem
      rw [List.map_append, List.map_cons, List.nodup_append] at hnodup
      exact hnodup.2.2 _ hmem _ (.head _) rfl
    have henter := h.enter hnew fun h' hh => hpinned h' hh r (.head _)
    rw [hsplit] at hnodup
    obtain ⟨j', hread, hagrees, hrevision⟩ := ih (index + 1) henter hnodup
      fun h' hh r' hr => hpinned h' hh r' (.tail r hr)
    have hnone : j.consumed[r.grantId]? = none := by
      rw [h.consumed, Consumption.find_eq_none.mpr hnew, Option.map_none]
    refine ⟨j', ?_, hsplit ▸ hagrees, ?_⟩
    · simpa [Consumption.line, readLines, hnone] using hread
    · rw [hrevision]
      cases r.binding <;> rfl

end GrantJournal

namespace Ledger

open GrantJournal

variable {L : Ledger}

/-- A reader of the lines of a ledger agrees with it. -/
theorem readLines_lines (L : Ledger) :
    ∃ j, readLines 0 (L.lines.map some) GrantJournal.empty = .ok j ∧
      Agrees j L.header L.records ∧ j.revision = none := by
  cases hh : L.header with
  | none =>
    have hpinned : ∀ h ∈ (none : Option ConsumptionHistory), ∀ r ∈ L.records, ∀ b ∈ r.binding,
        b.issuerEpoch ≤ h.highestIssuerEpoch := by simp
    obtain ⟨j, hread, hagrees, hrevision⟩ :=
      agrees_readLines 0 agrees_empty (by simpa using L.nodup) hpinned
    exact ⟨j, by simpa [lines, hh] using hread, by simpa using hagrees, hrevision⟩
  | some header =>
    have hstart : Agrees { GrantJournal.empty with history := some header } (some header) [] :=
      ⟨agrees_empty.consumed, agrees_empty.bindings, agrees_empty.size, rfl⟩
    obtain ⟨j, hread, hagrees, hrevision⟩ :=
      agrees_readLines 1 hstart (by simpa using L.nodup) fun h heq => L.pinned h (hh ▸ heq)
    refine ⟨j, ?_, by simpa using hagrees, hrevision⟩
    simpa [lines, hh, readLines, GrantJournal.empty] using hread

/-- What `read_locked` checks once the lines are read holds of a ledger. -/
theorem accepted {j : GrantJournal} (h : Agrees j L.header L.records) :
    ¬ grantJournalMaxRecords < j.consumed.size ∧
      ((j.history.any fun h => !h.isBound) && !j.consumed.isEmpty) = false := by
  refine ⟨?_, ?_⟩
  · rw [h.size]
    exact not_lt.mpr L.bounded
  rw [h.history]
  cases hh : L.header with
  | none => rfl
  | some header =>
    by_cases hrecords : L.records = []
    · have hempty : j.consumed.isEmpty = true := by
        rw [Std.TreeMap.isEmpty_eq_size_eq_zero, h.size, hrecords]
        rfl
      simp [hempty]
    · simp [L.bound header hh hrecords]

theorem lines_injective {L L' : Ledger} (h : L.lines = L'.lines) : L = L' := by
  have hline : Function.Injective Consumption.line := by
    rintro ⟨id, e, b⟩ ⟨id', e', b'⟩ heq
    simpa [Consumption.line] using heq
  have hparts : L.header = L'.header ∧ L.records = L'.records := by
    unfold lines at h
    cases hh : L.header <;> cases hh' : L'.header <;> rw [hh, hh'] at h
    · exact ⟨rfl, hline.list_map (by simpa using h)⟩
    · -- a header is not a consumption
      cases hr : L.records <;> simp [hr, Consumption.line] at h
    · cases hr : L'.records <;> simp [hr, Consumption.line] at h
    · obtain ⟨hheader, hrecords⟩ : _ ∧ L.records.map _ = L'.records.map _ := by simpa using h
      exact ⟨by rw [hheader], hline.list_map hrecords⟩
  cases L
  cases L'
  obtain ⟨rfl, rfl⟩ := hparts
  rfl

/-- The ledger with one more consumption. -/
def push (L : Ledger) (r : Consumption) (hnew : r.grantId ∉ L.records.map Consumption.grantId)
    (hreadable : r.isReadable = true) (hbound : ∀ h ∈ L.header, h.isBound = true)
    (hpinned : ∀ h ∈ L.header, ∀ b ∈ r.binding, b.issuerEpoch ≤ h.highestIssuerEpoch)
    (hroom : L.records.length < grantJournalMaxRecords) : Ledger where
  header := L.header
  records := L.records ++ [r]
  nodup := by
    rw [List.map_append, List.nodup_append]
    refine ⟨L.nodup, by simp, fun id hid id' hid' heq => hnew ?_⟩
    obtain rfl : id' = r.grantId := by simpa using hid'
    exact heq ▸ hid
  readable r' hr := by
    rcases List.mem_append.mp hr with hr | hr
    · exact L.readable r' hr
    · exact List.mem_singleton.mp hr ▸ hreadable
  writable := L.writable
  named := L.named
  bound h hh _ := hbound h hh
  pinned h hh r' hr := by
    rcases List.mem_append.mp hr with hr | hr
    · exact L.pinned h hh r' hr
    · exact List.mem_singleton.mp hr ▸ hpinned h hh
  bounded := by
    rw [List.length_append]
    exact hroom

/-- The ledger of the first `n` records. -/
def truncate (L : Ledger) (n : ℕ) : Ledger where
  header := L.header
  records := L.records.take n
  nodup := L.nodup.sublist ((List.take_sublist n L.records).map Consumption.grantId)
  readable r hr := L.readable r (List.mem_of_mem_take hr)
  writable := L.writable
  named := L.named
  bound h hh hne := L.bound h hh fun hnil => hne (by rw [hnil, List.take_nil])
  pinned h hh r hr := L.pinned h hh r (List.mem_of_mem_take hr)
  bounded := (List.length_take_le' n L.records).trans L.bounded

/-- The consumptions of the grants in `kept`, as a rewritten file has them. -/
def rewritten (j : GrantJournal) (kept : Std.TreeMap String ℕ) : List Consumption :=
  kept.toList.map fun e => ⟨e.1, e.2, j.bindings[e.1]?⟩

variable {j : GrantJournal} {kept : Std.TreeMap String ℕ}

theorem nodup_rewritten : ((rewritten j kept).map Consumption.grantId).Nodup := by
  have hkeys : (rewritten j kept).map Consumption.grantId = kept.toList.map Prod.fst := by
    rw [rewritten, List.map_map]
    rfl
  rw [hkeys, Std.TreeMap.map_fst_toList_eq_keys]
  exact Std.TreeMap.nodup_keys

theorem mem_rewritten {r : Consumption} : r ∈ rewritten j kept ↔
      kept[r.grantId]? = some r.expiresAtMs ∧ r.binding = j.bindings[r.grantId]? := by
  constructor
  · intro h
    obtain ⟨⟨id, e⟩, hmem, rfl⟩ := List.mem_map.mp h
    exact ⟨Std.TreeMap.mem_toList_iff_getElem?_eq_some.mp hmem, rfl⟩
  · rintro ⟨hkept, hbinding⟩
    refine List.mem_map.mpr ⟨(r.grantId, r.expiresAtMs),
      Std.TreeMap.mem_toList_iff_getElem?_eq_some.mpr hkept, ?_⟩
    rw [← hbinding]

theorem find_rewritten (id : String) : Consumption.find (rewritten j kept) id =
    kept[id]?.map fun e => ⟨id, e, j.bindings[id]?⟩ := by
  apply Option.ext
  intro r
  rw [Consumption.find_eq_some nodup_rewritten, mem_rewritten, Option.map_eq_some_iff]
  constructor
  · rintro ⟨⟨hkept, hbinding⟩, rfl⟩
    exact ⟨r.expiresAtMs, hkept, by rw [← hbinding]⟩
  · rintro ⟨e, he, rfl⟩
    exact ⟨⟨he, rfl⟩, rfl⟩

/-- A journal that agrees with a ledger rewrites the file into another one: the records of the
grants in `kept`, under a header that covers them. -/
theorem exists_rewritten (hj : Agrees j L.header L.records)
    (hkept : ∀ (id : String) (e : ℕ), kept[id]? = some e → j.consumed[id]? = some e)
    (hsize : kept.size ≤ j.consumed.size) {header : Option ConsumptionHistory}
    (hwritable : ∀ h ∈ header, h.isWritable = true)
    (hheader : ∀ h ∈ header, ∃ h' ∈ L.header, h.historyId = h'.historyId ∧
      h'.highestIssuerEpoch ≤ h.highestIssuerEpoch ∧ (h'.isBound = true → h.isBound = true)) :
    ∃ L' : Ledger, L'.header = header ∧ L'.records = rewritten j kept ∧
      L'.lines = j.fileLines kept header := by
  have hmem : ∀ r ∈ rewritten j kept, r ∈ L.records := by
    intro r hr
    obtain ⟨hin, hbinding⟩ := mem_rewritten.mp hr
    have hold := hkept _ _ hin
    rw [hj.consumed, Option.map_eq_some_iff] at hold
    obtain ⟨r', hfind, hexpires⟩ := hold
    rw [hj.bindings, hfind, Option.bind_some] at hbinding
    obtain ⟨hr', hid⟩ := (Consumption.find_eq_some L.nodup).mp hfind
    obtain rfl : r = r' := by
      cases r
      cases r'
      simp_all
    exact hr'
  refine ⟨{
    header := header
    records := rewritten j kept
    nodup := nodup_rewritten
    readable := fun r hr => L.readable r (hmem r hr)
    writable := hwritable
    named := fun h hh => ?_
    bound := fun h hh hne => ?_
    pinned := fun h hh r hr b hb => ?_
    bounded := ?_ }, rfl, rfl, ?_⟩
  · obtain ⟨h', hh', hid, -⟩ := hheader h hh
    rw [ConsumptionHistory.hasNonce, hid]
    exact L.named h' hh'
  · obtain ⟨h', hh', -, -, hbound⟩ := hheader h hh
    refine hbound (L.bound h' hh' fun hnil => hne ?_)
    exact List.eq_nil_iff_forall_not_mem.mpr fun r hr => by simpa [hnil] using hmem r hr
  · obtain ⟨h', hh', -, hle, -⟩ := hheader h hh
    exact (L.pinned h' hh' r (hmem r hr) b hb).trans hle
  · rw [rewritten, List.length_map, Std.TreeMap.length_toList]
    exact hsize.trans (hj.size ▸ L.bounded)
  · simp only [lines, rewritten, List.map_map]
    rfl

/-! ### A path that holds a ledger -/

/-- A reader of the path finds the lines of `L`; a file that is not there has none. -/
def HeldBy (L : Ledger) (slot : Slot JournalLine) : Prop :=
  (slot.file?.getD .empty).lines = L.lines.map some

variable {slot slot' : Slot JournalLine}

theorem isHistory_line (r : Consumption) : r.line.isHistory = false := rfl

theorem historyMisplaced_lines (L : Ledger) : historyMisplaced (L.lines.map some) = false := by
  unfold historyMisplaced lines
  cases L.header with
  | none => simp [isHistory_line, List.any_map, Function.comp_def]
  | some => simp [JournalLine.isHistory]

theorem HeldBy.unique {L' : Ledger} (h : L.HeldBy slot) (h' : L'.HeldBy slot')
    (hfile : slot'.file? = slot.file?) : L' = L := by
  rw [HeldBy] at h h'
  rw [hfile, h] at h'
  exact (lines_injective (List.map_injective_iff.mpr (fun _ _ => Option.some.inj) h')).symm

theorem HeldBy.of_lines (h : L.HeldBy slot)
    (hlines : slot'.file?.map Storage.File.lines = slot.file?.map Storage.File.lines) :
    L.HeldBy slot' := by
  rw [HeldBy] at h ⊢
  rw [← h]
  cases hf : slot.file? <;> cases hf' : slot'.file? <;> simp_all

/-- A successful read of the path agrees with what it holds. -/
theorem HeldBy.agrees (h : L.HeldBy slot) {io : ReadIo} {j : GrantJournal}
    (hread : readLocked slot io = (slot', .ok j)) : Agrees j L.header L.records := by
  obtain ⟨j₀, hlines, hagrees, -⟩ := L.readLines_lines
  obtain ⟨hnone, rfl⟩ | ⟨f, j₁, hf, hok, rfl⟩ := readLocked_eq_ok hread
  · -- no file: the ledger has no lines
    rw [HeldBy, hnone] at h
    rw [← h] at hlines
    obtain rfl : GrantJournal.empty = j₀ := by simpa [readLines, Storage.File.empty] using hlines
    exact hagrees
  · rw [HeldBy, hf] at h
    rw [Option.getD_some] at h
    rw [h, hlines] at hok
    cases hok
    exact hagrees.with_revision _

end Ledger

/-! ### What a process saw earlier -/

/-- A header and records, as a process saw them in a file or holds them in memory. -/
structure View where
  header : Option ConsumptionHistory
  Records : String → ℕ → Prop

/-- The content of a file. -/
def Ledger.view (L : Ledger) : View where
  header := L.header
  Records id e := ∃ r ∈ L.records, r.grantId = id ∧ r.expiresAtMs = e

/-- The journal of a process. -/
def GrantJournal.view (j : GrantJournal) : View where
  header := j.history
  Records id e := j.consumed[id]? = some e

/-- What `a` saw is explained by `b`, a later content: under the same header, a record is still
there or was pruned. -/
def View.Precedes (a b : View) : Prop :=
  ∀ h ∈ a.header, ∃ h' ∈ b.header, h'.historyId = h.historyId ∧
    h.prunedThroughMs ≤ h'.prunedThroughMs ∧ h.highestIssuerEpoch ≤ h'.highestIssuerEpoch ∧
    (h.isBound = true → h'.sameScope h = true) ∧
    ∀ id e, a.Records id e → h'.prunedThroughMs < e → b.Records id e

namespace View.Precedes

variable {a b c : View}

theorem refl (a : View) : a.Precedes a := by
  intro h hh
  refine ⟨h, hh, rfl, le_rfl, le_rfl, fun _ => ?_, fun _ _ hr _ => hr⟩
  simp [ConsumptionHistory.sameScope]

theorem trans (hab : a.Precedes b) (hbc : b.Precedes c) : a.Precedes c := by
  intro h hh
  obtain ⟨h', hh', hid, hpruned, hepoch, hscope, hrecords⟩ := hab h hh
  obtain ⟨h'', hh'', hid', hpruned', hepoch', hscope', hrecords'⟩ := hbc h' hh'
  refine ⟨h'', hh'', hid'.trans hid, hpruned.trans hpruned', hepoch.trans hepoch',
    fun hbound => ?_, fun id e hr hlt => hrecords' id e (hrecords id e hr ?_) hlt⟩
  · have hsame := hscope hbound
    simp only [ConsumptionHistory.sameScope, Bool.and_eq_true, beq_iff_eq] at hsame
    have hbound' : h'.isBound = true := by
      rw [ConsumptionHistory.isBound, hsame.1.1]
      exact hbound
    have hsame' := hscope' hbound'
    simp only [ConsumptionHistory.sameScope, Bool.and_eq_true, beq_iff_eq] at hsame' ⊢
    exact ⟨⟨hsame'.1.1.trans hsame.1.1, hsame'.1.2.trans hsame.1.2⟩, hsame'.2.trans hsame.2⟩
  · exact hpruned'.trans_lt hlt

end View.Precedes

namespace GrantJournal

variable {j current : GrantJournal} {L : Ledger}

theorem Agrees.view_precedes (h : Agrees j L.header L.records) :
    j.view.Precedes L.view ∧ L.view.Precedes j.view := by
  have hrecords : ∀ id e, j.view.Records id e ↔ L.view.Records id e :=
    fun id e => h.getElem?_eq_some L.nodup
  have hheader : j.view.header = L.view.header := h.history
  constructor
  · intro h' hh
    obtain ⟨h'', hh'', hrest⟩ := View.Precedes.refl L.view h' (hheader ▸ hh)
    exact ⟨h'', hh'', hrest.1, hrest.2.1, hrest.2.2.1, hrest.2.2.2.1,
      fun id e hr hlt => (hrecords id e).mp hr⟩
  · intro h' hh
    obtain ⟨h'', hh'', hrest⟩ := View.Precedes.refl j.view h' (hheader ▸ hh)
    exact ⟨h'', hh'', hrest.1, hrest.2.1, hrest.2.2.1, hrest.2.2.2.1,
      fun id e hr hlt => (hrecords id e).mpr hr⟩

/-- No rollback is reported against a later content, and the journal read from it stays as it
was read. -/
theorem succeededBy_of_precedes (h : j.view.Precedes current.view) :
    j.succeededBy current = .ok current := by
  unfold succeededBy
  cases hj : j.history with
  | none => rfl
  | some previous =>
    obtain ⟨header, hheader, hid, hpruned, hepoch, hscope, hrecords⟩ := h previous hj
    have hcurrent : current.history = some header := hheader
    have hcheck : ¬ (header.historyId ≠ previous.historyId ∨
        header.prunedThroughMs < previous.prunedThroughMs ∨
        (previous.isBound && !header.sameScope previous) = true) := by
      rintro (hne | hlt | hother)
      · exact hne hid
      · exact absurd hpruned (not_le.mpr hlt)
      · obtain ⟨hbound, hscoped⟩ := Bool.and_eq_true_iff.mp hother
        rw [hscope hbound] at hscoped
        exact absurd hscoped Bool.false_ne_true
    simp only [hcurrent, if_neg hcheck]
    split
    · next hany =>
      obtain ⟨⟨id, e⟩, hmem, hgone⟩ := List.any_eq_true.mp hany
      rw [Std.TreeMap.mem_toList_iff_getElem?_eq_some] at hmem
      rw [Bool.and_eq_true, decide_eq_true_eq] at hgone
      have hkept : current.consumed[id]? = some e := hrecords id e hmem hgone.1
      simp [hkept] at hgone
    · rw [Nat.max_eq_left hepoch, ← hcurrent]

end GrantJournal

end BlindPass.Broker
