import BlindPass.Broker.GrantJournal
import BlindPass.Canon.Size
import BlindPass.Recovery.History

/-!
# The broker's report of its journal

The broker writes the rows of its journal to a file without a name, one canonical line for each row,
and notes the offset of the first row of every page. A page is read back from the file: the lines
from its offset on, as records again. The pages of a journal are its rows, in their order, and
complete the controller's accumulator.

Whatever goes wrong, the answer is the same denial.
-/

namespace BlindPass.Recovery

open Broker (GrantJournal JournalLine)
open Fleet (DocumentError Value ensure canonicalized canonicalized_eq_ok optionalValue)
open Fleet.Value (object null string unsigned)
open Storage (Slot)
open Transaction (bind_eq_ok)
open Utf8 (decode? encode)

variable (sha256 : List UInt8 → List UInt8)

/-! ### Reading a record -/

/-- An object with these fields, each of them once. -/
def exactFields (v : Value) (names : List String) : Except DocumentError Unit :=
  ensure (v.asObject.any fun fields => fields.length == names.length &&
    names.all fun name => fields.countP (·.1 == name) == 1) invalid

def text (v : Value) (name : String) : Except DocumentError String :=
  ((v.str name).filter (·.utf8ByteSize ≤ 128)).elim (.error (.invalid invalid)) .ok

def optionalText (v : Value) (name : String) : Except DocumentError (Option String) :=
  match v.get name with
  | some .null => .ok none
  | some (.string text) =>
    if text.utf8ByteSize ≤ 128 then .ok (some text) else .error (.invalid invalid)
  | _ => .error (.invalid invalid)

def integer (v : Value) (name : String) : Except DocumentError ℕ :=
  ((v.u64 name).filter (· ≤ Fleet.maxSafeInteger)).elim (.error (.invalid invalid)) .ok

/-- The epoch of a record, which may be missing. -/
def optionalEpoch (v : Value) : Except DocumentError (Option ℕ) :=
  match v.get "issuer_epoch" with
  | some .null => .ok none
  | some value => value.asU64.elim (.error (.invalid invalid)) (.ok ∘ some)
  | none => .error (.invalid invalid)

def IntentRecord.fromValue (v : Value) : Except DocumentError IntentRecord := do
  exactFields v ["grant_id", "operation_id", "issuer_epoch", "expires_at_ms", "outcome"]
  let outcome ← text v "outcome"
  ensure (outcome == "uncertain") invalid
  let operationId ← optionalText v "operation_id"
  let issuerEpoch ← optionalEpoch v
  let grantId ← text v "grant_id"
  let expiresAtMs ← integer v "expires_at_ms"
  let record : IntentRecord := ⟨grantId, expiresAtMs, operationId, issuerEpoch⟩
  record.validate
  return record

/-! ### The file -/

def maxSnapshotBytes : ℕ := 192 * 1024 * 1024

def denied : String := "recovery_report_denied"

/-- Every error is a denial. -/
def orDenied {ε α : Type} (result : Except ε α) : Except String α := result.mapError fun _ => denied

def allow (check : Bool) : Except String Unit := if check then .ok () else .error denied

/-- `read_until`: what comes before the delimiter, and the delimiter. -/
def readUntil (delimiter : UInt8) : List UInt8 → List UInt8
  | [] => []
  | b :: rest => if b = delimiter then [b] else b :: readUntil delimiter rest

/-- The next record, and what comes behind its line. -/
def readRecord (bytes : List UInt8) : Except String (IntentRecord × List UInt8) := do
  let line := readUntil 10 (bytes.take 1024)
  allow (line.getLast? == some 10)
  let text ← (decode? line).elim (.error denied) .ok
  let value ← orDenied (Canon.parseJson (String.ofList text))
  let record ← orDenied (IntentRecord.fromValue value)
  return (record, bytes.drop line.length)

def readRecords : ℕ → List UInt8 → Except String (List IntentRecord)
  | 0, _ => .ok []
  | n + 1, bytes => do
    let (record, rest) ← readRecord bytes
    let more ← readRecords n rest
    return record :: more

/-- The file while it is written, with the digest of its rows. -/
structure SnapshotFile where
  digest : PageDigest
  offsets : List ℕ
  bytes : List UInt8

namespace SnapshotFile

/-- Write the row of an index. -/
def write (w : SnapshotFile) (index : ℕ) (r : IntentRecord) : Except String SnapshotFile := do
  let offsets := if 0 < index ∧ index % recordsPerPage = 0 then w.offsets ++ [w.bytes.length]
    else w.offsets
  let digest ← orDenied (w.digest.push sha256 r)
  let value ← orDenied r.toValue
  let canonical ← orDenied (canonicalized value)
  allow (w.bytes.length + (canonical.length + 1) ≤ maxSnapshotBytes)
  return ⟨digest, offsets, w.bytes ++ (canonical ++ [10])⟩

/-- Write the rows from an index on, as long as the challenge has not expired. -/
def writeAll (clock : ℕ → ℕ) (expires : ℕ) :
    ℕ → List IntentRecord → SnapshotFile → Except String SnapshotFile
  | _, [], w => .ok w
  | index, r :: rest, w => do
    allow (clock index < expires)
    let w ← w.write sha256 index r
    writeAll clock expires (index + 1) rest w

end SnapshotFile

/-- The file, where its pages start, and what they are signed with. -/
structure HistorySnapshot where
  file : List UInt8
  offsets : List ℕ
  manifest : ReportManifest
  pinEpoch : ℕ
  expiresBoottimeMs : ℕ

/-- The rows of the journal, by ascending identifiers. -/
def intentRecords (j : GrantJournal) : List IntentRecord :=
  j.consumed.toList.map fun (grantId, expiresAtMs) =>
    ⟨grantId, expiresAtMs, j.bindings[grantId]?.map (·.operationId),
      j.bindings[grantId]?.map (·.issuerEpoch)⟩

/-- The manifest before the hash is known. -/
def openManifest (j : GrantJournal) (identity : ReportIdentity) (reportId : String)
    (pinEpoch originalObserved : ℕ) : ReportManifest where
  identity := identity
  reportId := reportId
  observedIssuerEpoch :=
    let observed := j.bindings.toList.foldl (fun n b => max n b.2.issuerEpoch) originalObserved
    j.history.elim observed fun history =>
      if pinEpoch < history.highestIssuerEpoch then max observed history.highestIssuerEpoch
      else observed
  coverage := ⟨j.history.map (·.historyId), j.history.elim 0 (·.prunedThroughMs),
    j.consumed.size - j.bindings.size⟩
  totalRecords := j.consumed.size
  recordsDigest := hashText (List.replicate 32 0)

/-- The pinned controller, as far as a report is checked against it. -/
structure ReportPin where
  tenantId : String
  nodeId : String
  keyId : String
  epoch : ℕ

/-- The outcome of every system call of a snapshot, and the boot clock at each row. -/
structure SnapshotIo where
  lock : Bool
  sync : GrantJournal.SyncIo
  file : Bool
  clock : ℕ → ℕ

/-- Write the report of a journal that has been read again. -/
def report (j : GrantJournal) (identity : ReportIdentity) (reportId : String) (pin : ReportPin)
    (originalObserved expires : ℕ) (io : SnapshotIo) : Except String HistorySnapshot := do
  allow (j.history.all fun history => history.tenantId == pin.tenantId &&
    history.nodeId == pin.nodeId && history.issuerKeyId == pin.keyId)
  let manifest := openManifest j identity reportId pin.epoch originalObserved
  let digest ← orDenied (PageDigest.new sha256 manifest)
  allow io.file
  let file ← SnapshotFile.writeAll sha256 io.clock expires 0 (intentRecords j) ⟨digest, [0], []⟩
  let recordsDigest ← orDenied file.digest.finish
  return ⟨file.bytes, file.offsets, { manifest with recordsDigest }, pin.epoch, expires⟩

/-- `GrantJournal::snapshot`: the journal as it is read again, and its report. -/
def snapshot (j : GrantJournal) (slot : Slot JournalLine) (identity : ReportIdentity)
    (reportId : String) (pin : ReportPin) (originalObserved expires : ℕ) (io : SnapshotIo) :
    Slot JournalLine × Except String (GrantJournal × HistorySnapshot) :=
  if !io.lock then (slot, .error denied)
  else
    match j.synchronize slot io.sync with
    | (slot, .error _) => (slot, .error denied)
    | (slot, .ok j) =>
      (slot, (report sha256 j identity reportId pin originalObserved expires io).map (j, ·))

/-- `signed_page`: a page and its signature, made by the identity of the node. The clock is read
at the start, before and after signing. -/
def HistorySnapshot.signedPage (s : HistorySnapshot) (index : ℕ) (clock : ℕ → ℕ)
    (sign : ReportPage → ℕ → Except String String) : Except String (ReportPage × String) := do
  allow (clock 0 < s.expiresBoottimeMs)
  let offset ← s.offsets[index]?.elim (.error denied) .ok
  let expected := min (s.manifest.totalRecords - index * recordsPerPage) recordsPerPage
  let records ← readRecords expected (s.file.drop offset)
  let page : ReportPage := ⟨s.manifest, index, records⟩
  allow (clock 1 < s.expiresBoottimeMs)
  let signature ← sign page s.pinEpoch
  allow (clock 2 < s.expiresBoottimeMs)
  let body ← orDenied page.toValue
  let canonical ← orDenied (canonicalized
    (object [("body", body), ("broker_signature", string signature)]))
  allow (canonical.length ≤ maxPageBytes)
  return (page, signature)

/-! ### Lines -/

/-- The line of a row that can be written. -/
def lineOf (r : IntentRecord) : List UInt8 :=
  (Canon.canonicalizeValue (object r.fields)).toOption.getD [] ++ [10]

/-- The row can be written. -/
def Written (r : IntentRecord) : Prop :=
  ∃ canonical, Canon.canonicalizeValue (object r.fields) = .ok canonical

section Lines

variable {r r' : IntentRecord} {records more : List IntentRecord} {bytes rest rest' : List UInt8}
  {delimiter : UInt8}

@[simp] theorem orDenied_eq_ok {ε α : Type} {result : Except ε α} {a : α} :
    orDenied result = .ok a ↔ result = .ok a := by
  cases result <;> simp [orDenied, Except.mapError]

@[simp] theorem allow_eq_ok {check : Bool} {u : Unit} : allow check = .ok u ↔ check = true := by
  cases check <;> simp [allow]

theorem readUntil_of_notMem (h : delimiter ∉ bytes) : readUntil delimiter bytes = bytes := by
  induction bytes with
  | nil => rfl
  | cons b more ih =>
    rw [readUntil, if_neg (List.ne_of_not_mem_cons h).symm, ih (List.not_mem_of_not_mem_cons h)]

theorem readUntil_append (h : delimiter ∉ bytes) :
    readUntil delimiter (bytes ++ delimiter :: rest) = bytes ++ [delimiter] := by
  induction bytes with
  | nil => simp [readUntil]
  | cons b more ih =>
    rw [List.cons_append, readUntil, if_neg (List.ne_of_not_mem_cons h).symm,
      ih (List.not_mem_of_not_mem_cons h), List.cons_append]

theorem elim_eq_ok {ε α : Type} {e : ε} {value : Option α} {a : α} :
    value.elim (.error e) .ok = (.ok a : Except ε α) ↔ value = some a := by
  cases value <;> simp

/-- A record is read from its fields in any order. -/
theorem IntentRecord.eq_of_fromValue
    (h : IntentRecord.fromValue (Canon.norm (object r.fields)) = .ok r') : r' = r := by
  have hdistinct : (object r.fields).Distinct := by simp [Value.Distinct, fields]
  obtain ⟨_, -, h⟩ := bind_eq_ok.mp h
  obtain ⟨_, -, h⟩ := bind_eq_ok.mp h
  obtain ⟨_, -, h⟩ := bind_eq_ok.mp h
  obtain ⟨operationId, hoperation, h⟩ := bind_eq_ok.mp h
  obtain ⟨issuerEpoch, hepoch, h⟩ := bind_eq_ok.mp h
  obtain ⟨grantId, hgrant, h⟩ := bind_eq_ok.mp h
  obtain ⟨expiresAtMs, hexpires, h⟩ := bind_eq_ok.mp h
  obtain ⟨_, -, h⟩ := bind_eq_ok.mp h
  cases h
  rw [text, elim_eq_ok, Option.filter_eq_some_iff, Canon.str_norm hdistinct] at hgrant
  rw [integer, elim_eq_ok, Option.filter_eq_some_iff, Canon.u64_norm hdistinct] at hexpires
  rw [optionalText, Canon.get_norm hdistinct] at hoperation
  rw [optionalEpoch, Canon.get_norm hdistinct] at hepoch
  obtain ⟨grant, expires, operation, epoch⟩ := r
  simp [fields] at hgrant hexpires hoperation hepoch
  have hsame : operationId = operation := by
    cases operation with
    | none => simpa [optionalValue, Canon.norm, eq_comm] using hoperation
    | some id =>
      simp only [optionalValue, Option.elim_some, Canon.norm] at hoperation
      split at hoperation
      · exact (Except.ok.inj hoperation).symm
      · cases hoperation
  have hsameEpoch : issuerEpoch = epoch := by
    cases epoch with
    | none => simpa [Canon.norm, eq_comm] using hepoch
    | some n =>
      have hnumber : Canon.norm (unsigned n) = unsigned n := by simp [Canon.norm, Canon.normInteger]
      simpa [hnumber, Value.asU64, eq_comm] using hepoch
  rw [hgrant.1, hexpires.1, hsame, hsameEpoch]

/-- A record that is read at the start of a line is that of the line. -/
theorem readRecord_line (hr : Written r)
    (h : readRecord (lineOf r ++ rest) = .ok (r', rest')) : r' = r ∧ rest' = rest := by
  obtain ⟨canonical, hcanonical⟩ := hr
  have hnone := Canon.newline_notMem_canonicalizeValue hcanonical
  rw [lineOf, hcanonical, Except.toOption, Option.getD_some, List.append_assoc,
    List.singleton_append] at h
  unfold readRecord at h
  obtain ⟨_, hlast, h⟩ := bind_eq_ok.mp h
  rcases Nat.lt_or_ge canonical.length 1024 with hshort | hlong
  · have hline : readUntil 10 ((canonical ++ 10 :: rest).take 1024) = canonical ++ [10] := by
      obtain ⟨n, hn⟩ := Nat.exists_eq_add_of_lt hshort
      rw [List.take_append, List.take_of_length_le hshort.le,
        show 1024 - canonical.length = n + 1 by omega, List.take_succ_cons]
      exact readUntil_append hnone
    rw [hline] at h
    obtain ⟨text, htext, h⟩ := bind_eq_ok.mp h
    obtain ⟨value, hvalue, h⟩ := bind_eq_ok.mp h
    obtain ⟨record, hrecord, h⟩ := bind_eq_ok.mp h
    cases h
    rw [elim_eq_ok, Utf8.decode?_eq_some] at htext
    rw [orDenied_eq_ok] at hvalue hrecord
    have hcount : (object r.fields).count ≤ Canon.maxValues := by
      obtain ⟨grant, expires, operation, epoch⟩ := r
      cases operation <;> cases epoch <;>
        simp [IntentRecord.fields, optionalValue, Value.count, Value.countFields, Canon.maxValues]
    have hblank : Canon.IsBlank ['\n'] := fun c hc => .inr (.inl (List.mem_singleton.mp hc))
    obtain ⟨form, hform, hparse⟩ :=
      Canon.parseJson_of_canonicalizeValue_append hcanonical hcount hblank (by
        rw [List.length_append]
        exact (Nat.add_le_add_right hshort.le 1).trans (by decide))
    have hsame : text = form.toList := Utf8.encode_injective (htext.symm.trans hform)
    rw [hsame, String.ofList_toList, hparse] at hvalue
    cases hvalue
    refine ⟨IntentRecord.eq_of_fromValue hrecord, ?_⟩
    rw [show canonical ++ 10 :: rest = (canonical ++ [10]) ++ rest by simp]
    exact List.drop_left
  · -- a longer line is cut before its end
    rw [List.take_append_of_le_length hlong,
      readUntil_of_notMem fun hmem => hnone (List.mem_of_mem_take hmem), allow_eq_ok,
      beq_iff_eq] at hlast
    exact absurd (List.mem_of_mem_take (List.mem_of_getLast? hlast)) hnone

/-- The records read from some lines are those of the lines. -/
theorem readRecords_lines {n : ℕ} (hwritten : ∀ r ∈ records, Written r) (hn : n ≤ records.length)
    (h : readRecords n (records.flatMap lineOf) = .ok more) : more = records.take n := by
  induction n generalizing records more with
  | zero => exact (Except.ok.inj h).symm
  | succ n ih =>
    cases records with
    | nil => simp at hn
    | cons r rest =>
      rw [List.flatMap_cons, readRecords] at h
      obtain ⟨⟨read, behind⟩, hread, h⟩ := bind_eq_ok.mp h
      obtain ⟨later, hlater, h⟩ := bind_eq_ok.mp h
      cases h
      obtain ⟨rfl, rfl⟩ := readRecord_line (hwritten r (.head _)) hread
      rw [List.take_succ_cons, ih (fun r hr => hwritten r (.tail _ hr)) (by simpa using hn) hlater]

end Lines

/-! ### Offsets -/

/-- How many pages there are for this many rows. -/
def pagesFor (n : ℕ) : ℕ := max ((n + recordsPerPage - 1) / recordsPerPage) 1

/-- Where a page starts in the file of some rows. -/
def offsetOf (records : List IntentRecord) (k : ℕ) : ℕ :=
  ((records.take (k * recordsPerPage)).flatMap lineOf).length

/-- The file after some rows. -/
structure SnapshotFile.Holds (d₀ : PageDigest) (records : List IntentRecord) (w : SnapshotFile) :
    Prop where
  digest : records.foldlM (PageDigest.push sha256) d₀ = .ok w.digest
  bytes : w.bytes = records.flatMap lineOf
  offsets : w.offsets = (List.range (pagesFor records.length)).map (offsetOf records)
  written : ∀ r ∈ records, Written r

section Offsets

variable {sha256} {d₀ : PageDigest} {records rest : List IntentRecord} {r : IntentRecord}
  {w w' : SnapshotFile}

/-- A row behind the others starts a page if the pages before it are full. -/
theorem offsets_append (records : List IntentRecord) (r : IntentRecord) :
    (List.range (pagesFor (records ++ [r]).length)).map (offsetOf (records ++ [r])) =
      if 0 < records.length ∧ records.length % recordsPerPage = 0 then
        (List.range (pagesFor records.length)).map (offsetOf records) ++
          [(records.flatMap lineOf).length]
      else (List.range (pagesFor records.length)).map (offsetOf records) := by
  have hsame : ∀ k, k * 128 ≤ records.length → offsetOf (records ++ [r]) k = offsetOf records k := by
    intro k hk
    rw [offsetOf, offsetOf, recordsPerPage, List.take_append_of_le_length hk]
  have hold : (List.range (pagesFor records.length)).map (offsetOf (records ++ [r])) =
      (List.range (pagesFor records.length)).map (offsetOf records) := by
    apply List.map_congr_left
    intro k hk
    rw [List.mem_range, pagesFor, recordsPerPage] at hk
    exact hsame k (by omega)
  rw [List.length_append, List.length_singleton]
  split
  · next hfull =>
    rw [recordsPerPage] at hfull
    have hpages : pagesFor (records.length + 1) = pagesFor records.length + 1 := by
      unfold pagesFor recordsPerPage
      omega
    have hlast : pagesFor records.length * 128 = records.length := by
      unfold pagesFor recordsPerPage
      omega
    rw [hpages, List.range_succ, List.map_append, hold, List.map_singleton, hsame _ hlast.le,
      offsetOf, recordsPerPage, hlast, List.take_length]
  · next hpart =>
    have hpages : pagesFor (records.length + 1) = pagesFor records.length := by
      rw [recordsPerPage] at hpart
      unfold pagesFor recordsPerPage
      omega
    rw [hpages, hold]

theorem SnapshotFile.Holds.write (h : w.Holds sha256 d₀ records)
    (hwrite : w.write sha256 records.length r = .ok w') : w'.Holds sha256 d₀ (records ++ [r]) := by
  obtain ⟨digest, hdigest, hwrite⟩ := bind_eq_ok.mp hwrite
  obtain ⟨value, hvalue, hwrite⟩ := bind_eq_ok.mp hwrite
  obtain ⟨canonical, hcanonical, hwrite⟩ := bind_eq_ok.mp hwrite
  obtain ⟨_, -, hwrite⟩ := bind_eq_ok.mp hwrite
  obtain ⟨_, -, hfields⟩ := bind_eq_ok.mp (orDenied_eq_ok.mp hvalue)
  cases hwrite
  cases hfields
  rw [orDenied_eq_ok, canonicalized_eq_ok] at hcanonical
  have hline : lineOf r = canonical ++ [10] := by rw [lineOf, hcanonical, Except.toOption,
    Option.getD_some]
  refine ⟨?_, ?_, ?_, ?_⟩
  · rw [List.foldlM_append, bind_eq_ok]
    exact ⟨w.digest, h.digest, by simp [orDenied_eq_ok.mp hdigest]⟩
  · rw [List.flatMap_append, List.flatMap_singleton, h.bytes, hline]
  · rw [offsets_append, h.offsets, h.bytes]
  · intro r' hr'
    rcases List.mem_append.mp hr' with hr' | hr'
    · exact h.written r' hr'
    · rw [List.mem_singleton.mp hr']
      exact ⟨canonical, hcanonical⟩

theorem SnapshotFile.Holds.writeAll {clock : ℕ → ℕ} {expires : ℕ} (h : w.Holds sha256 d₀ records)
    (hwrite : SnapshotFile.writeAll sha256 clock expires records.length rest w = .ok w') :
    w'.Holds sha256 d₀ (records ++ rest) := by
  induction rest generalizing records w with
  | nil =>
    cases hwrite
    rwa [List.append_nil]
  | cons r rest ih =>
    obtain ⟨_, -, hwrite⟩ := bind_eq_ok.mp hwrite
    obtain ⟨next, hnext, hwrite⟩ := bind_eq_ok.mp hwrite
    have hall := ih (h.write hnext) (by simpa using hwrite)
    rwa [List.append_assoc] at hall

end Offsets

section Main

variable {sha256} {j : GrantJournal} {identity : ReportIdentity} {reportId : String}
  {pin : ReportPin} {observed expires : ℕ} {io : SnapshotIo} {s : HistorySnapshot}

theorem length_intentRecords : (intentRecords j).length = j.consumed.size := by
  rw [intentRecords, List.length_map, Std.TreeMap.length_toList]

/-- The file of a report has the lines of the rows, and an offset for each page. -/
structure HistorySnapshot.Files (s : HistorySnapshot) (records : List IntentRecord) : Prop where
  file : s.file = records.flatMap lineOf
  offsets : s.offsets = (List.range s.manifest.pageCount).map (offsetOf records)
  written : ∀ r ∈ records, Written r
  total : records.length = s.manifest.totalRecords

/-- A page of a report is cut out of its rows, and its manifest is valid. -/
theorem HistorySnapshot.Files.signedPage {records : List IntentRecord} (hs : s.Files records)
    {k : ℕ} {clock : ℕ → ℕ} {sign : ReportPage → ℕ → Except String String} {page : ReportPage}
    {signature : String} (h : s.signedPage k clock sign = .ok (page, signature)) :
    page = pageOf s.manifest records k ∧ s.manifest.validate = .ok () := by
  obtain ⟨_, -, h⟩ := bind_eq_ok.mp h
  obtain ⟨offset, hoffset, h⟩ := bind_eq_ok.mp h
  obtain ⟨read, hread, h⟩ := bind_eq_ok.mp h
  obtain ⟨_, -, h⟩ := bind_eq_ok.mp h
  obtain ⟨_, -, h⟩ := bind_eq_ok.mp h
  obtain ⟨_, -, h⟩ := bind_eq_ok.mp h
  obtain ⟨body, hbody, h⟩ := bind_eq_ok.mp h
  obtain ⟨_, -, h⟩ := bind_eq_ok.mp h
  obtain ⟨_, -, h⟩ := bind_eq_ok.mp h
  cases h
  obtain ⟨_, hvalid, -⟩ := bind_eq_ok.mp (orDenied_eq_ok.mp hbody)
  rw [elim_eq_ok, hs.offsets, List.getElem?_map, Option.map_eq_some_iff] at hoffset
  obtain ⟨i, hi, rfl⟩ := hoffset
  obtain ⟨hk, hsame⟩ := List.getElem?_eq_some_iff.mp hi
  rw [List.getElem_range] at hsame
  rw [← hsame, hs.file] at hread
  -- what is left of the file is the lines from the page on
  have hrest : (records.flatMap lineOf).drop (offsetOf records k) =
      (records.drop (k * recordsPerPage)).flatMap lineOf := by
    conv_lhs => rw [← List.take_append_drop (k * recordsPerPage) records, List.flatMap_append]
    rw [offsetOf, List.take_append_drop]
    exact List.drop_left
  rw [hrest] at hread
  have hrecords := readRecords_lines (fun r hr => hs.written r (List.mem_of_mem_drop hr)) (by
    rw [List.length_drop, hs.total]
    exact min_le_left _ _) hread
  refine ⟨?_, hvalid⟩
  rw [pageOf, ReportPage.mk.injEq]
  refine ⟨rfl, rfl, ?_⟩
  rw [hrecords, List.take_eq_take_iff, List.length_drop, hs.total]
  omega

/-- What the report of a journal goes back to. -/
theorem report_eq_ok
    (h : report sha256 j identity reportId pin observed expires io = .ok s) :
    ∃ d₀ e text, PageDigest.new sha256 (openManifest j identity reportId pin.epoch observed) = .ok d₀ ∧
      (intentRecords j).foldlM (PageDigest.push sha256) d₀ = .ok e ∧ e.finish = .ok text ∧
      s.manifest = { openManifest j identity reportId pin.epoch observed with recordsDigest := text } ∧
      s.Files (intentRecords j) := by
  obtain ⟨_, -, h⟩ := bind_eq_ok.mp h
  obtain ⟨d₀, hnew, h⟩ := bind_eq_ok.mp h
  obtain ⟨_, -, h⟩ := bind_eq_ok.mp h
  obtain ⟨file, hfile, h⟩ := bind_eq_ok.mp h
  obtain ⟨text, hfinish, h⟩ := bind_eq_ok.mp h
  cases h
  have hempty : SnapshotFile.Holds sha256 d₀ [] ⟨d₀, [0], []⟩ := ⟨rfl, rfl, rfl, nofun⟩
  have hholds := hempty.writeAll hfile
  rw [List.nil_append] at hholds
  refine ⟨d₀, file.digest, text, orDenied_eq_ok.mp hnew, hholds.digest, orDenied_eq_ok.mp hfinish,
    rfl, hholds.bytes, ?_, hholds.written, length_intentRecords⟩
  rw [hholds.offsets, length_intentRecords]
  rfl

/-- The pages that a journal is reported with complete an accumulator. -/
theorem complete_of_report {pages : ℕ → ReportPage}
    (h : report sha256 j identity reportId pin observed expires io = .ok s)
    (hpages : ∀ k < s.manifest.pageCount, ∃ clock sign signature,
      s.signedPage k clock sign = .ok (pages k, signature)) :
    (∀ k ≤ s.manifest.pageCount,
        (PageAccumulator.new.pushAll sha256 ((List.range k).map pages)).complete =
          decide (k = s.manifest.pageCount)) ∧
      ((List.range s.manifest.pageCount).map pages).flatMap (·.records) = intentRecords j := by
  obtain ⟨d₀, e, text, hnew, hall, hfinish, hmanifest, hfiles⟩ := report_eq_ok h
  have htotal : (intentRecords j).length =
    (openManifest j identity reportId pin.epoch observed).totalRecords := length_intentRecords
  generalize openManifest j identity reportId pin.epoch observed = m at hnew htotal hmanifest
  have hpage : ∀ k < s.manifest.pageCount, pages k = pageOf s.manifest (intentRecords j) k ∧
      s.manifest.validate = .ok () := by
    intro k hk
    obtain ⟨clock, sign, signature, hsigned⟩ := hpages k hk
    exact hfiles.signedPage hsigned
  have hpos : 0 < s.manifest.pageCount := Nat.lt_of_lt_of_le Nat.one_pos (le_max_right _ _)
  have hvalid := (hpage 0 hpos).2
  have hcut : ∀ n ≤ s.manifest.pageCount, (List.range n).map pages =
      (List.range n).map (pageOf s.manifest (intentRecords j)) := by
    intro n hn
    apply List.map_congr_left
    intro k hk
    exact (hpage k ((List.mem_range.mp hk).trans_le hn)).1
  have hcovered : (intentRecords j).length ≤ s.manifest.pageCount * recordsPerPage := by
    rw [hfiles.total, ReportManifest.pageCount, recordsPerPage]
    omega
  -- the digest of the report is that of the final manifest
  have hall' := PageDigest.pushAll_withDigest text hall
  rw [(PageDigest.covers_new hnew).manifest] at hall'
  have hfinish' : PageDigest.finish { e with manifest := { m with recordsDigest := text } } =
      .ok text := by
    rw [PageDigest.finish, ((PageDigest.covers_new hnew).pushAll hall).manifest] at hfinish
    exact hfinish
  refine ⟨fun k hk => ?_, ?_⟩
  · rw [hcut k hk]
    rw [hmanifest] at hvalid hk ⊢
    exact complete_pages (PageDigest.new_withDigest hnew hvalid) hall' hfinish' htotal hk
  · rw [hcut _ le_rfl, flatMap_pageOf, List.take_of_length_le hcovered]

end Main

/-- The pages of a journal complete an accumulator with the last of them, an accumulator is complete
only with all pages of one manifest, and it is never complete after a page that it refused. -/
theorem history_pages_complete (sha256 : List UInt8 → List UInt8) :
    (∀ j slot identity reportId pin observed expires io slot' j' s pages,
      snapshot sha256 j slot identity reportId pin observed expires io = (slot', .ok (j', s)) →
      (∀ k < s.manifest.pageCount, ∃ clock sign signature,
        s.signedPage k clock sign = .ok (pages k, signature)) →
      j.synchronize slot io.sync = (slot', .ok j') ∧
      s.offsets.length = s.manifest.pageCount ∧
      (∀ k ≤ s.manifest.pageCount,
        (PageAccumulator.new.pushAll sha256 ((List.range k).map pages)).complete =
          decide (k = s.manifest.pageCount)) ∧
      ((List.range s.manifest.pageCount).map pages).flatMap (·.records) = intentRecords j' ∧
      (intentRecords j').Pairwise fun r r' => r.grantId < r'.grantId) ∧
    (∀ pages, (PageAccumulator.new.pushAll sha256 pages).complete = true →
      ∃ m, Delivers sha256 m pages) ∧
    ∀ (a : PageAccumulator) page e more, (a.push sha256 page).2 = .error e →
      ((a.push sha256 page).1.pushAll sha256 more).complete = false := by
  refine ⟨?_, fun pages => PageAccumulator.delivers_of_complete, ?_⟩
  · intro j slot identity reportId pin observed expires io slot' j' s pages hsnapshot hpages
    unfold snapshot at hsnapshot
    split at hsnapshot
    · cases hsnapshot
    split at hsnapshot
    · cases hsnapshot
    next read current hsync =>
    obtain ⟨rfl, hreport⟩ := Prod.mk.inj hsnapshot
    obtain ⟨written, hreport, hsame⟩ := Transaction.map_eq_ok.mp hreport
    cases hsame
    obtain ⟨hcomplete, hrows⟩ := complete_of_report hreport hpages
    obtain ⟨-, -, -, -, -, -, -, hfiles⟩ := report_eq_ok hreport
    refine ⟨hsync, by simp [hfiles.offsets], hcomplete, hrows, ?_⟩
    obtain ⟨m, hm⟩ := PageAccumulator.delivers_of_complete
      ((hcomplete _ le_rfl).trans (decide_eq_true rfl))
    exact hrows ▸ hm.ascending
  · intro a page e more herror
    exact PageAccumulator.complete_pushAll_of_poisoned (PageAccumulator.poisoned_of_error herror)

namespace Sample

/-- A hash that depends on all the bytes. -/
def hash (bytes : List UInt8) : List UInt8 :=
  List.replicate 31 0 ++ [bytes.foldl (fun digest b => digest * 31 + b) 7]

/-- The text of 32 bytes. -/
def nonce (b : UInt8) : String := String.ofList (Fleet.base64UrlEncode (List.replicate 32 b))

/-- A journal without a header, with a row from before operations were noted. -/
def slot : Slot JournalLine :=
  ⟨.settled (some (.settled (.ofLines [.consumption "grant-2" 6000 (some ⟨"op-2", 3⟩),
    .consumption "grant-1" 5000 none]))), 1⟩

/-- The snapshot of a process that has not read the journal yet. -/
def taken : Slot JournalLine × Except String (GrantJournal × HistorySnapshot) :=
  snapshot hash .empty slot ⟨"tenant", "node", 1, "key", "recovery", 1, nonce 1⟩ (nonce 2)
    ⟨"tenant", "node", "key", 2⟩ 2 1000 ⟨true, .clean, true, fun _ => 5⟩

/-- The only page of the snapshot. -/
def page (s : HistorySnapshot) : Except String (ReportPage × String) :=
  s.signedPage 0 (fun _ => 5) fun _ _ => .ok "signature"

end Sample

/-- The rows of the journal come back in one page, by ascending identifiers. -/
theorem history_pages_complete_sample : ∃ slot' j' s page signature,
    Sample.taken = (slot', .ok (j', s)) ∧ Sample.page s = .ok (page, signature) ∧
      page.records = [⟨"grant-1", 5000, none, none⟩, ⟨"grant-2", 6000, some "op-2", some 3⟩] ∧
      (PageAccumulator.new.pushAll Sample.hash [page]).complete = true := by
  have hrun : Sample.taken.2.toOption.any (fun r => r.2.manifest.pageCount == 1 &&
      (Sample.page r.2).toOption.any fun p => p.1.records ==
        [⟨"grant-1", 5000, none, none⟩, ⟨"grant-2", 6000, some "op-2", some 3⟩]) = true := by
    decide +kernel
  rcases htaken : Sample.taken with ⟨slot', _ | ⟨j', s⟩⟩
  · simp [htaken, Except.toOption] at hrun
  simp only [htaken, Except.toOption, Option.any_some, Bool.and_eq_true, beq_iff_eq] at hrun
  obtain ⟨hcount, hpage⟩ := hrun
  rcases hsigned : Sample.page s with _ | ⟨page, signature⟩
  · simp [hsigned] at hpage
  simp only [hsigned, Option.any_some, beq_iff_eq] at hpage
  refine ⟨slot', j', s, page, signature, rfl, hsigned, hpage, ?_⟩
  obtain ⟨-, -, hcomplete, -⟩ := (history_pages_complete Sample.hash).1 _ _ _ _ _ _ _ _ _ _ _
    (fun _ => page) htaken fun k hk => by
      obtain rfl : k = 0 := by omega
      exact ⟨_, _, _, hsigned⟩
  simpa [hcount] using hcomplete _ le_rfl

end BlindPass.Recovery
