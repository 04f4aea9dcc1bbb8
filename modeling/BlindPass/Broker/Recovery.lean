import BlindPass.Broker.Denial
import BlindPass.Broker.JournalText

/-!
# Reading back what is left of a journal

An append may be interrupted at any byte. The next reader of the file finds the lines that are
complete and a part of the one that is not, drops that part, and reads the rest. This module
models the reader on the bytes of the file, and shows that it agrees with the model that keeps a
file as a list of lines.
-/

namespace BlindPass.Broker

open Utf8 (encode)
open Text (unlines)
open Storage (Slot File)
open ConsumptionHistory (checkedLine_eq_ok fieldsText newline_notMem_line parse parse_eq_ok
  toList_line)

/-! ### The reader on bytes -/

/-- The bytes of a line, without its newline. -/
def JournalLine.bytes : JournalLine → List UInt8
  | .history header => encode header.line.toList
  | .consumption grantId expiresAtMs binding =>
    encode (consumptionLine grantId expiresAtMs binding).toList

/-- How every header starts. -/
def historyMark : List UInt8 := encode "\x7b\"history_version\":".toList

def truncateTornTail (contents : List UInt8) : List UInt8 :=
  if contents.isEmpty || contents.getLast? == some 10 then contents
  else Text.keepLines 10 contents

namespace GrantJournal

/-- The lines of the file, read into `j` from line number `index` on. -/
def readRecords (index : ℕ) : List (List UInt8) → GrantJournal → Except String GrantJournal
  | [], j => .ok j
  | line :: rest, j =>
    if historyMark <+: line then
      if index ≠ 0 ∨ j.history.isSome then
        .error "grant history header is misplaced or duplicated"
      else
        match parse line with
        | .error e => .error e
        | .ok header => readRecords (index + 1) rest { j with history := some header }
    else
      match parseJournalLine line with
      | .error e => .error e
      | .ok r =>
        match j.consumed[r.grantId]? with
        | some existing =>
          if existing ≠ r.expiresAtMs ∨ j.bindings[r.grantId]? ≠ r.binding then
            .error "grant journal contains a conflicting replay record"
          else readRecords (index + 1) rest j
        | none => readRecords (index + 1) rest (j.enter r.grantId r.expiresAtMs r.binding)

/-- `read_locked` of a file with these contents, when every system call succeeds. It returns the
contents that it leaves in the file. -/
def readContents (contents : List UInt8) (revision : ℕ) :
    Except String (List UInt8 × GrantJournal) :=
  if grantJournalMaxBytes < contents.length then
    .error "grant journal exceeds its configured size bound"
  else if ((contents.splitOn 10).any fun line => historyMark <+: line) ∧
      (¬ historyMark <+: contents ∨ 10 ∉ contents) then
    .error "grant history is misplaced or its header is torn"
  else
    let kept := truncateTornTail contents
    match readRecords 0 ((kept.splitOn 10).filter (· ≠ [])) empty with
    | .error e => .error e
    | .ok j =>
      if grantJournalMaxRecords < j.consumed.size then
        .error "grant journal exceeds its record bound"
      else if (j.history.any fun h => !h.isBound) && !j.consumed.isEmpty then
        .error "unbound grant history contains consumption records"
      else .ok (kept, { j with revision := some revision })

end GrantJournal

theorem truncateTornTail_eq (contents : List UInt8) :
    truncateTornTail contents = Text.keepLines 10 contents := by
  unfold truncateTornTail
  split
  · rename_i hwhole
    rcases List.eq_nil_or_concat' contents with rfl | ⟨rest, last, rfl⟩
    · rfl
    · obtain rfl : last = 10 := by simpa using hwhole
      rw [Text.keepLines, List.rdropWhile_concat_neg]
      decide
  · rfl

/-! ### The lines of a file -/

variable {line : JournalLine}

namespace JournalLine

/-- The line is one that a writer accepts. -/
def IsWritten : JournalLine → Prop
  | .history header => header.hasNonce = true ∧ header.isWritable = true
  | .consumption grantId expiresAtMs binding =>
    Consumption.isReadable ⟨grantId, expiresAtMs, binding⟩ = true

theorem size_eq (line : JournalLine) : line.size = line.bytes.length + 1 := by
  cases line with
  | history | consumption => rw [size, bytes, Utf8.utf8ByteSize_eq]

theorem newline_not_mem (h : line.IsWritten) : 10 ∉ line.bytes := by
  cases line with
  | history =>
    have hnone := Utf8.newline_notMem_encode (newline_notMem_line h.1 h.2)
    exact hnone
  | consumption =>
    have hnone := Utf8.newline_notMem_encode (newline_notMem_text h)
    exact hnone

theorem mark_prefix_history (header : ConsumptionHistory) :
    historyMark <+: (history header).bytes := by
  have hstart : "\x7b\"history_version\":".toList <+: header.line.toList := by
    rw [toList_line, fieldsText]
    simp [fieldText, quoted]
  obtain ⟨rest, hrest⟩ := hstart
  rw [bytes, ← hrest, Utf8.encode_append]
  exact List.prefix_append _ _

theorem not_mark_prefix_consumption (r : Consumption) : ¬ historyMark <+: r.line.bytes := by
  -- the third byte is that of the name of another field
  have hmark : historyMark = 123 :: 34 :: 104 :: historyMark.drop 3 := by decide
  have hbytes : ∃ rest, r.line.bytes = 123 :: 34 :: 103 :: rest := by
    have hstart : encode "\x7b\"grant_id\":\"".toList =
        123 :: 34 :: 103 :: (encode "\x7b\"grant_id\":\"".toList).drop 3 := by decide
    have htext : r.line.bytes = encode r.text := rfl
    rw [htext, Consumption.text_eq, Utf8.encode_append, hstart]
    exact ⟨_, rfl⟩
  obtain ⟨rest, hrest⟩ := hbytes
  rw [hmark, hrest, List.cons_prefix_cons, List.cons_prefix_cons, List.cons_prefix_cons]
  rintro ⟨-, -, hne, -⟩
  exact absurd hne (by decide)

theorem bytes_ne_nil (line : JournalLine) : line.bytes ≠ [] := by
  have hpos : 0 < line.bytes.length := by
    cases line with
    | history header =>
      have hle := (mark_prefix_history header).length_le
      exact Nat.lt_of_lt_of_le (by decide) hle
    | consumption grantId expiresAtMs binding =>
      have htext : (consumption grantId expiresAtMs binding).bytes =
        encode (Consumption.text ⟨grantId, expiresAtMs, binding⟩) := rfl
      rw [htext, Consumption.text_eq, Utf8.encode_append, List.length_append]
      exact Nat.lt_of_lt_of_le (by decide) (Nat.le_add_right _ _)
  exact List.ne_nil_of_length_pos hpos

end JournalLine

namespace GrantJournal

/-- The bytes of written lines are read as the lines are. -/
theorem readRecords_bytes (index : ℕ) {lines : List JournalLine}
    (h : ∀ line ∈ lines, line.IsWritten) (j : GrantJournal) :
    readRecords index (lines.map JournalLine.bytes) j = readLines index (lines.map some) j := by
  induction lines generalizing index j with
  | nil => rfl
  | cons line rest ih =>
    have hrest := fun index j => ih index (fun l hl => h l (.tail line hl)) j
    have hline := h line (.head _)
    cases line with
    | history header =>
      have hparse : parse (JournalLine.history header).bytes = .ok header :=
        parse_eq_ok.mpr ⟨hline.1, hline.2, rfl⟩
      rw [List.map_cons, List.map_cons, readRecords, readLines,
        if_pos (JournalLine.mark_prefix_history header), hparse]
      split
      · rfl
      · exact hrest _ _
    | consumption grantId expiresAtMs binding =>
      have hmark : ¬ historyMark <+: (JournalLine.consumption grantId expiresAtMs binding).bytes :=
        JournalLine.not_mark_prefix_consumption ⟨grantId, expiresAtMs, binding⟩
      have hparse : parseJournalLine (JournalLine.consumption grantId expiresAtMs binding).bytes =
          .ok ⟨grantId, expiresAtMs, binding⟩ :=
        parseJournalLine_eq_ok.mpr ⟨hline, rfl⟩
      rw [List.map_cons, List.map_cons, readRecords, readLines, if_neg hmark, hparse]
      dsimp only
      cases j.consumed[grantId]? with
      | none => exact hrest _ _
      | some =>
        dsimp only
        split
        · rfl
        · exact hrest _ _

end GrantJournal

/-! ### The contents of a ledger -/

namespace Ledger

open GrantJournal

variable {L : Ledger}

theorem isWritten_of_mem (h : line ∈ L.lines) : line.IsWritten := by
  rcases List.mem_append.mp h with h | h
  · obtain ⟨header, hheader, rfl⟩ : ∃ header ∈ L.header, JournalLine.history header = line := by
      simpa using h
    exact ⟨L.named header hheader, L.writable header hheader⟩
  · obtain ⟨r, hr, rfl⟩ := List.mem_map.mp h
    exact L.readable r hr

/-- The bytes of the lines of a ledger. -/
def contents (L : Ledger) : List UInt8 := unlines 10 (L.lines.map JournalLine.bytes)

theorem newline_not_mem {line : List UInt8} (h : line ∈ L.lines.map JournalLine.bytes) :
    10 ∉ line := by
  obtain ⟨l, hl, rfl⟩ := List.mem_map.mp h
  exact JournalLine.newline_not_mem (isWritten_of_mem hl)

variable {part : List UInt8}

/-- The header of a ledger stands where a reader expects it, whatever part of a record follows
the lines. -/
theorem header_placed (hpart : ¬ historyMark <+: part) :
    ¬ (((L.lines.map JournalLine.bytes ++ [part]).any fun line => historyMark <+: line) ∧
      (¬ historyMark <+: L.contents ++ part ∨ 10 ∉ L.contents ++ part)) := by
  rintro ⟨hany, hmisplaced⟩
  cases hh : L.header with
  | some header =>
    obtain ⟨rest, hcontents⟩ : ∃ rest, L.contents ++ part =
        (JournalLine.history header).bytes ++ 10 :: rest := by
      refine ⟨unlines 10 ((L.records.map Consumption.line).map JournalLine.bytes) ++ part, ?_⟩
      simp [contents, lines, hh, Text.unlines_cons]
    rw [hcontents] at hmisplaced
    rcases hmisplaced with hmark | hnewline
    · exact hmark ((JournalLine.mark_prefix_history header).trans (List.prefix_append _ _))
    · simp at hnewline
  | none =>
    -- no line of a journal without a header looks like one
    obtain ⟨line, hline, hmark⟩ := List.any_eq_true.mp hany
    rw [decide_eq_true_eq] at hmark
    rcases List.mem_append.mp hline with hline | hline
    · simp only [lines, hh, Option.map_none, Option.toList_none, List.nil_append, List.map_map,
        List.mem_map] at hline
      obtain ⟨r, -, rfl⟩ := hline
      exact JournalLine.not_mark_prefix_consumption r hmark
    · rw [List.mem_singleton.mp hline] at hmark
      exact hpart hmark

/-- The lines of a ledger, and a part of a record behind them, are read as what the ledger holds;
the part is dropped. -/
theorem readContents_ledger (hfree : 10 ∉ part) (hpart : ¬ historyMark <+: part)
    (hsize : (L.contents ++ part).length ≤ grantJournalMaxBytes) (revision : ℕ) :
    ∃ j, readContents (L.contents ++ part) revision = .ok (L.contents, j) ∧
      Agrees j L.header L.records ∧ j.revision = some revision := by
  have hsplit : (L.contents ++ part).splitOn 10 = L.lines.map JournalLine.bytes ++ [part] :=
    Text.splitOn_unlines (fun l hl => newline_not_mem hl) hfree
  have hkept : truncateTornTail (L.contents ++ part) = L.contents := by
    rw [truncateTornTail_eq]
    exact Text.keepLines_unlines hfree
  have hlines : (L.contents.splitOn 10).filter (· ≠ []) = L.lines.map JournalLine.bytes := by
    have hwhole := Text.splitOn_unlines (fun l hl => newline_not_mem (L := L) hl)
      List.not_mem_nil
    rw [List.append_nil] at hwhole
    have hne : ∀ l ∈ L.lines.map JournalLine.bytes, decide (l ≠ []) = true := by
      intro l hl
      obtain ⟨line, -, rfl⟩ := List.mem_map.mp hl
      exact decide_eq_true line.bytes_ne_nil
    rw [contents, hwhole, List.filter_append, List.filter_eq_self.mpr hne]
    simp
  obtain ⟨j, hread, hagrees, -⟩ := L.readLines_lines
  obtain ⟨hbounded, hbound⟩ := accepted hagrees
  refine ⟨{ j with revision := some revision }, ?_, hagrees.with_revision _, rfl⟩
  have hplaced := header_placed (L := L) hpart
  rw [readContents, if_neg (not_lt.mpr hsize), hsplit, if_neg hplaced, hkept]
  dsimp only
  rw [hlines, readRecords_bytes 0 (fun line hline => isWritten_of_mem hline), hread]
  dsimp only
  rw [if_neg hbounded, hbound]
  rfl

/-- The bytes of the header of a ledger, with its newline. -/
def headerContents (header : Option ConsumptionHistory) : List UInt8 :=
  unlines 10 ((header.map JournalLine.history).toList.map JournalLine.bytes)

theorem contents_eq (L : Ledger) : L.contents =
    headerContents L.header ++ unlines 10 (L.records.map fun r => r.line.bytes) := by
  rw [contents, lines, List.map_append, Text.unlines_append, List.map_map]
  rfl

theorem length_contents (L : Ledger) : L.contents.length = (L.lines.map JournalLine.size).sum := by
  rw [contents]
  induction L.lines with
  | nil => rfl
  | cons line rest ih =>
    rw [List.map_cons, List.map_cons, List.sum_cons, Text.unlines_cons, List.length_append,
      List.length_cons, ih, JournalLine.size_eq]
    omega

end Ledger

/-! ### The file of a run -/

/-- The bytes that a file may have: those of its lines, and the first bytes of the line of a
consumption whose append failed and could not be taken back. -/
def IsContents (f : File JournalLine) (contents : List UInt8) : Prop :=
  ∃ (lines : List JournalLine) (tail : List UInt8), f.lines = lines.map some ∧
    contents = unlines 10 (lines.map JournalLine.bytes) ++ tail ∧ tail.length = f.torn ∧
    ∃ r : Consumption, r.isReadable = true ∧ tail <+: r.line.bytes

section Recovery

open GrantJournal Ledger

variable {run : List WriterTransition} {s : SharedJournal} {L : Ledger} {f : File JournalLine}
  {contents found : List UInt8}

theorem contents_of_heldBy (hL : L.HeldBy s.slot) (hfile : s.slot.file? = some f)
    (hcontents : IsContents f contents) :
    ∃ tail, contents = L.contents ++ tail ∧ contents.length = f.length JournalLine.size ∧
      ∃ r : Consumption, r.isReadable = true ∧ tail <+: r.line.bytes := by
  obtain ⟨lines, tail, hlines, rfl, htorn, hr⟩ := hcontents
  rw [Ledger.HeldBy, hfile, Option.getD_some, hlines] at hL
  obtain rfl : lines = L.lines := List.map_injective_iff.mpr (fun _ _ => Option.some.inj) hL
  refine ⟨tail, rfl, ?_, hr⟩
  have hsum : (f.lines.map fun line => line.elim 0 JournalLine.size) = L.lines.map JournalLine.size := by
    rw [hlines, List.map_map]
    rfl
  rw [List.length_append, File.length, hsum, ← length_contents, htorn]
  rfl

variable {r : Consumption} {j : GrantJournal} {nodeId : Option String} {slot : Slot JournalLine}

/-- What remains of the file, if its header does, is the contents of the ledger of the first
records and a part of a line. -/
theorem exists_truncate {tail : List UInt8} (hr : r.isReadable = true)
    (htail : tail <+: r.line.bytes) (hfound : found <+: L.contents ++ tail)
    (hheader : headerContents L.header <+: found) :
    ∃ n part, found = (L.truncate n).contents ++ part ∧ 10 ∉ part ∧ ¬ historyMark <+: part := by
  obtain ⟨rest, rfl⟩ := hheader
  rw [contents_eq, List.append_assoc, List.prefix_append_right_inj] at hfound
  have hwritten : ∀ r' : Consumption, r'.isReadable = true → 10 ∉ r'.line.bytes :=
    fun r' hr' => JournalLine.newline_not_mem hr'
  have hlines : ∀ l ∈ L.records.map fun r => r.line.bytes, 10 ∉ l := by
    intro l hl
    obtain ⟨r', hr', rfl⟩ := List.mem_map.mp hl
    exact hwritten r' (L.readable r' hr')
  obtain ⟨n, part, rfl, hfree, l, hl, hpart⟩ := Text.exists_of_prefix_unlines hlines
    (fun hmem => hwritten r hr (htail.mem hmem)) hfound
  refine ⟨n, part, ?_, hfree, fun hmark => ?_⟩
  · rw [contents_eq, truncate, List.map_take, List.append_assoc]
  -- the part belongs to the line of a record
  rcases List.mem_append.mp (List.mem_of_getElem? hl) with hmem | hmem
  · obtain ⟨r', -, rfl⟩ := List.mem_map.mp hmem
    exact JournalLine.not_mark_prefix_consumption r' (hmark.trans hpart)
  · rw [List.mem_singleton.mp hmem] at hpart
    exact JournalLine.not_mark_prefix_consumption r ((hmark.trans hpart).trans htail)

/-- A journal that agrees with the file records a consumption that it does not refuse. -/
theorem record_clean (hfile : slot.file? = some (.ofLines L.lines))
    (hrevision : j.revision = some slot.stamp)
    (hrefusal : j.refusal? r.grantId r.expiresAtMs r.binding nodeId = none)
    (hroom : L.contents.length + r.line.size ≤ grantJournalMaxBytes) :
    ∃ j' slot', j.record slot r.grantId r.expiresAtMs r.binding nodeId .clean =
        (j', slot', .ok ()) ∧ slot'.file? = some (.ofLines (L.lines ++ [r.line])) := by
  have hsync : j.synchronize slot .clean = (slot, .ok j) := by
    simp [synchronize, SyncIo.clean, hfile, hrevision]
  have hlength : (File.ofLines L.lines).length JournalLine.size = L.contents.length := by
    rw [length_contents, File.length, File.ofLines, List.map_map]
    rfl
  obtain ⟨slot', happend, hfile'⟩ := Slot.append_clean hfile (hlength ▸ hroom)
  refine ⟨{ j.enter r.grantId r.expiresAtMs r.binding with revision := some slot'.stamp }, slot',
    ?_, ?_⟩
  · have happend' : slot.append JournalLine.size grantJournalMaxBytes
        (.consumption r.grantId r.expiresAtMs r.binding) .clean = (slot', .ok ()) := happend
    simp [record, RecordIo.clean, hsync, hrefusal, happend']
  · rw [hfile']
    simp [File.ofLines, File.appendLine]

/-- The file with one more consumption holds it. -/
theorem extends_record (hfile : slot.file? = some (.ofLines L.lines))
    (hj : Agrees j L.header L.records) (hrevision : j.revision = some slot.stamp)
    (hreadable : r.isReadable = true)
    (hrefusal : j.refusal? r.grantId r.expiresAtMs r.binding nodeId = none)
    (hroom : L.contents.length + r.line.size ≤ grantJournalMaxBytes) :
    ∃ j' slot', ∃ L' : Ledger, j.record slot r.grantId r.expiresAtMs r.binding nodeId .clean =
        (j', slot', .ok ()) ∧ L'.header = L.header ∧ L'.records = L.records ++ [r] ∧
      slot'.file? = some (.ofLines L'.lines) ∧
      ∃ j'', readContents L'.contents slot'.stamp = .ok (L'.contents, j'') ∧
        Agrees j'' L'.header L'.records := by
  obtain ⟨j', slot', hrecord, hfile'⟩ := record_clean hfile hrevision hrefusal hroom
  obtain ⟨-, -, hlt, hbinding⟩ := Consumption.isReadable_iff.mp hreadable
  obtain ⟨L', hheader, hrecords, -, -⟩ := exists_push hj hrefusal hlt hbinding
  have hlines : L'.lines = L.lines ++ [r.line] := lines_of_push hheader hrecords
  have hsize : (L'.contents ++ []).length ≤ grantJournalMaxBytes := by
    rw [List.append_nil, length_contents, hlines, List.map_append, List.sum_append]
    rw [length_contents] at hroom
    simpa using hroom
  obtain ⟨j'', hread, hagrees, -⟩ :=
    readContents_ledger (L := L') List.not_mem_nil (by decide) hsize slot'.stamp
  rw [List.append_nil] at hread
  exact ⟨j', slot', L', hrecord, hheader, hrecords, hlines ▸ hfile', j'', hread, hagrees⟩

/-- The readers of the two kinds of lines accept exactly what the writers make of the values they
accept; and of every file that the writers leave, every part that has the header is read as the
header and the records of its complete lines, and is cut back to a file that holds them and takes
another record. -/
theorem recovers_prefix :
    (∀ line r, parseJournalLine line = .ok r ↔ r.isReadable = true ∧ line = encode r.text) ∧
    (∀ line h, parse line = .ok h ↔
      ∃ text, h.checkedLine = .ok text ∧ encode text.toList = line ++ [10]) ∧
    ∀ run s f contents found, writers.Run run s → s.slot.file? = some f → IsContents f contents →
      found <+: contents → (∀ h ∈ s.header?, encode h.line.toList ++ [10] <+: found) →
      ∃ (L : Ledger) (part : List UInt8), L.header = s.header? ∧ found = L.contents ++ part ∧
        10 ∉ part ∧ ∀ slot : Slot JournalLine, slot.file? = some (.ofLines L.lines) →
          ∃ j, readContents found slot.stamp = .ok (L.contents, j) ∧ Agrees j L.header L.records ∧
            ∀ (r : Consumption) nodeId, r.isReadable = true →
              j.refusal? r.grantId r.expiresAtMs r.binding nodeId = none →
              L.contents.length + r.line.size ≤ grantJournalMaxBytes →
              ∃ j' slot', ∃ L' : Ledger, j.record slot r.grantId r.expiresAtMs r.binding nodeId .clean =
                  (j', slot', .ok ()) ∧ L'.header = L.header ∧ L'.records = L.records ++ [r] ∧
                slot'.file? = some (.ofLines L'.lines) ∧
                ∃ j'', readContents L'.contents slot'.stamp = .ok (L'.contents, j'') ∧
                  Agrees j'' L'.header L'.records := by
  refine ⟨fun line r => parseJournalLine_eq_ok, fun line h => ?_, ?_⟩
  · have hencode : ∀ text : String, encode (text ++ "\n").toList = encode text.toList ++ [10] := by
      intro text
      rw [String.toList_append, Utf8.encode_append]
      rfl
    rw [parse_eq_ok]
    constructor
    · rintro ⟨hnonce, hwritable, hline⟩
      exact ⟨_, checkedLine_eq_ok.mpr ⟨hnonce, hwritable, rfl⟩,
        by rw [hencode, hline]⟩
    · rintro ⟨text, htext, hline⟩
      obtain ⟨hnonce, hwritable, rfl⟩ := checkedLine_eq_ok.mp htext
      rw [hencode] at hline
      exact ⟨hnonce, hwritable, (List.append_cancel_right hline).symm⟩
  · intro run s f contents found hrun hfile hcontents hfound hheader
    obtain ⟨L, hL⟩ := exists_inv hrun
    obtain ⟨tail, rfl, hlength, r, hr, htail⟩ := contents_of_heldBy hL.held hfile hcontents
    have hwhole : headerContents L.header <+: found := by
      cases hh : L.header with
      | none => exact List.nil_prefix
      | some header => simpa [headerContents, unlines, JournalLine.bytes, hL.header?_eq, hh] using hheader
    obtain ⟨n, part, rfl, hfree, hmark⟩ := exists_truncate hr htail hfound hwhole
    refine ⟨L.truncate n, part, hL.header?_eq.symm, rfl, hfree, fun slot hslot => ?_⟩
    -- what remains is no longer than the file, which fits
    have hsize : ((L.truncate n).contents ++ part).length ≤ grantJournalMaxBytes := by
      refine hfound.length_le.trans (hlength ▸ ?_)
      exact SharedJournal.fits_of_run hrun f hfile
    obtain ⟨j, hread, hagrees, hrevision⟩ :=
      readContents_ledger (L := L.truncate n) hfree hmark hsize slot.stamp
    refine ⟨j, hread, hagrees, fun r nodeId hreadable hrefusal hroom => ?_⟩
    exact extends_record hslot hagrees hrevision hreadable hrefusal hroom

/-- Two consumptions, in a journal without a header. -/
def recordedEvents : List WriterEvent :=
  [.open 0 true .clean, .record 0 firstConsumption (some "node-1") .clean,
    .record 0 secondConsumption (some "node-1") .clean]

/-- The second line is cut after its first bytes. -/
theorem recovers_prefix_torn :
    let reached := (writers.play noJournal recordedEvents).2
    let lines := [firstConsumption.line, secondConsumption.line]
    reached.slot.file? = some (.ofLines lines) ∧ ∃ (L : Ledger) (part : List UInt8),
      L.header = reached.header? ∧
      (unlines 10 (lines.map (·.bytes))).take 100 = L.contents ++ part ∧ 10 ∉ part := by
  intro reached lines
  have hrun : writers.Run (writers.play noJournal recordedEvents).1 reached := by
    apply Execution.Machine.run_play start_noJournal
    apply admitsAll_of_isCall
    simp [recordedEvents, WriterEvent.IsCall, firstConsumption, secondConsumption]
    decide
  have hfile : reached.slot.file? = some (.ofLines lines) := by decide +kernel
  have hcontents : IsContents (.ofLines lines) (unlines 10 (lines.map (·.bytes))) :=
    ⟨lines, [], rfl, (List.append_nil _).symm, rfl, firstConsumption, by decide, List.nil_prefix⟩
  have hheader : reached.header? = none := by decide +kernel
  obtain ⟨L, part, hL, hfound, hfree, -⟩ := recovers_prefix.2.2 _ _ _ _ _ hrun hfile hcontents
    (List.take_prefix 100 _) (by rw [hheader]; rintro _ ⟨⟩)
  exact ⟨hfile, L, part, hL, hfound, hfree⟩

end Recovery

end BlindPass.Broker
