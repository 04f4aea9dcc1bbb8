import BlindPass.Fleet.Codec

/-!
# Pages of the consumption history

After a disaster a node reports which grants its broker consumed. The report is cut into pages
of bounded size, each with the whole manifest of the report; the controller asks for a page with
a signed request. A page names every intent of its range: identifiers in ascending order, none
of an epoch after the one the broker observed.
-/

namespace BlindPass.Recovery

open Fleet (DocumentError Value ensure isValidOpaqueId canonicalized optionalValue)
open Fleet.Value (string unsigned object array null)
open Transaction (bind_eq_ok)

def recordsPerPage : ℕ := 128

def maxHistoryRecords : ℕ := 1000000

def maxPageBytes : ℕ := 64 * 1024

/-- The error of every check in this file. -/
def invalid : String := "recovery report page"

def positive (n : ℕ) : Bool := 1 ≤ n && n ≤ Fleet.maxSafeInteger

/-- A nonce is the canonical text of 32 bytes. -/
def nonce (value : String) : Bool :=
  (Fleet.base64UrlDecode value.toList 32).any fun bytes =>
    Fleet.base64UrlEncode bytes == value.toList

/-- Which node reports to which recovery. -/
structure ReportIdentity where
  tenantId : String
  nodeId : String
  nodeKeyVersion : ℕ
  issuerKeyId : String
  recoveryId : String
  recoveryGeneration : ℕ
  challenge : String
  deriving DecidableEq

namespace ReportIdentity

def validate (i : ReportIdentity) : Except DocumentError Unit :=
  ensure ([i.tenantId, i.nodeId, i.issuerKeyId, i.recoveryId].all isValidOpaqueId &&
    positive i.nodeKeyVersion && positive i.recoveryGeneration && nonce i.challenge) invalid

def fields (i : ReportIdentity) : List (String × Value) :=
  [("tenant_id", string i.tenantId), ("node_id", string i.nodeId),
    ("node_key_version", unsigned i.nodeKeyVersion), ("issuer_key_id", string i.issuerKeyId),
    ("recovery_id", string i.recoveryId), ("recovery_generation", unsigned i.recoveryGeneration),
    ("challenge", string i.challenge)]

end ReportIdentity

/-- What the journal still knows: an unknown genesis is no identifier. -/
structure HistoryCoverage where
  historyId : Option String
  prunedThroughMs : ℕ
  unmappedRecords : ℕ
  deriving DecidableEq

/-- A durable one-use intent. Rows of an old journal name neither operation nor epoch. -/
structure IntentRecord where
  grantId : String
  expiresAtMs : ℕ
  operationId : Option String
  issuerEpoch : Option ℕ
  deriving DecidableEq

namespace IntentRecord

def validate (r : IntentRecord) : Except DocumentError Unit :=
  let correlation :=
    match r.operationId, r.issuerEpoch with
    | none, none => true
    | some operation, some epoch => isValidOpaqueId operation && positive epoch
    | _, _ => false
  ensure (isValidOpaqueId r.grantId && positive r.expiresAtMs && correlation) invalid

def fields (r : IntentRecord) : List (String × Value) :=
  [("grant_id", string r.grantId), ("expires_at_ms", unsigned r.expiresAtMs),
    ("operation_id", optionalValue r.operationId),
    ("issuer_epoch", r.issuerEpoch.elim null unsigned), ("outcome", string "uncertain")]

def toValue (r : IntentRecord) : Except DocumentError Value := do
  r.validate
  return object r.fields

end IntentRecord

/-- What every page of a report repeats. -/
structure ReportManifest where
  identity : ReportIdentity
  reportId : String
  observedIssuerEpoch : ℕ
  coverage : HistoryCoverage
  totalRecords : ℕ
  recordsDigest : String
  deriving DecidableEq

namespace ReportManifest

def pageCount (m : ReportManifest) : ℕ :=
  max ((m.totalRecords + recordsPerPage - 1) / recordsPerPage) 1

def validate (m : ReportManifest) : Except DocumentError Unit := do
  m.identity.validate
  ensure (nonce m.reportId && nonce m.recordsDigest && positive m.observedIssuerEpoch &&
    m.totalRecords ≤ maxHistoryRecords && m.coverage.prunedThroughMs ≤ Fleet.maxSafeInteger &&
    m.coverage.unmappedRecords ≤ m.totalRecords && m.coverage.historyId.all nonce &&
    (m.coverage.historyId.isSome || m.coverage.prunedThroughMs == 0)) invalid

def fields (m : ReportManifest) : List (String × Value) :=
  m.identity.fields ++
    [("version", unsigned 2), ("report_id", string m.reportId),
      ("observed_issuer_epoch", unsigned m.observedIssuerEpoch),
      ("history_id", optionalValue m.coverage.historyId),
      ("pruned_through_ms", unsigned m.coverage.prunedThroughMs),
      ("unmapped_records", unsigned m.coverage.unmappedRecords),
      ("total_records", unsigned m.totalRecords), ("page_count", unsigned m.pageCount),
      ("records_digest", string m.recordsDigest)]

end ReportManifest

structure ReportPage where
  manifest : ReportManifest
  pageIndex : ℕ
  records : List IntentRecord
  deriving DecidableEq

namespace ReportPage

/-- The records are valid, observed, and in ascending order of their grants. -/
def validateRecords (observed : ℕ) : Option String → List IntentRecord → Except DocumentError Unit
  | _, [] => .ok ()
  | previous, r :: rest => do
    r.validate
    ensure (r.issuerEpoch.all (· ≤ observed) && previous.all (· < r.grantId)) invalid
    validateRecords observed (some r.grantId) rest

def toValue (p : ReportPage) : Except DocumentError Value := do
  p.manifest.validate
  ensure (p.pageIndex < p.manifest.pageCount) invalid
  let remaining := p.manifest.totalRecords - p.pageIndex * recordsPerPage
  ensure (p.records.length == min remaining recordsPerPage) invalid
  validateRecords p.manifest.observedIssuerEpoch none p.records
  let records ← p.records.mapM IntentRecord.toValue
  let value := object (p.manifest.fields ++
    [("page_index", unsigned p.pageIndex), ("records", array records)])
  let bytes ← canonicalized value
  ensure (bytes.length ≤ maxPageBytes) invalid
  return value

end ReportPage

/-- The controller's request for a page. -/
structure ReportRequest where
  identity : ReportIdentity
  brokerChallenge : String
  reportId : Option String
  pageIndex : ℕ
  deriving DecidableEq

namespace ReportRequest

def fields (r : ReportRequest) : List (String × Value) :=
  r.identity.fields ++
    [("version", unsigned 1), ("broker_challenge", string r.brokerChallenge),
      ("report_id", optionalValue r.reportId), ("page_index", unsigned r.pageIndex)]

def toValue (r : ReportRequest) : Except DocumentError Value := do
  r.identity.validate
  ensure (nonce r.brokerChallenge && r.reportId.all nonce &&
    (r.reportId.isSome || r.pageIndex == 0) &&
    r.pageIndex < (maxHistoryRecords + recordsPerPage - 1) / recordsPerPage) invalid
  return object r.fields

end ReportRequest

/-! ### Reading a form back -/

section Injective

open Canon (norm)

variable {rest rest' : List (String × Value)} {p : ReportPage} {v v' : Value} {r r' : ReportRequest}

/-- Behind the fields of an identity every further field keeps them apart. -/
theorem ReportIdentity.eq_of_reads {i i' : ReportIdentity}
    (hstr : ∀ name, (object (i.fields ++ rest)).str name = (object (i'.fields ++ rest')).str name)
    (hnum : ∀ name, (object (i.fields ++ rest)).u64 name = (object (i'.fields ++ rest')).u64 name) :
    i = i' := by
  have htenant := hstr "tenant_id"
  have hnode := hstr "node_id"
  have hversion := hnum "node_key_version"
  have hissuer := hstr "issuer_key_id"
  have hrecovery := hstr "recovery_id"
  have hgeneration := hnum "recovery_generation"
  have hchallenge := hstr "challenge"
  cases i
  cases i'
  simp [fields] at htenant hnode hversion hissuer hrecovery hgeneration hchallenge
  simp [*]

theorem norm_optionalValue_inj {a b : Option String}
    (h : norm (optionalValue a) = norm (optionalValue b)) : a = b := by
  cases a <;> cases b <;> simp_all [optionalValue, Canon.norm]

theorem norm_optionalNumber_inj {a b : Option ℕ}
    (h : norm (a.elim null unsigned) = norm (b.elim null unsigned)) : a = b := by
  have hu64 := congrArg Value.asU64 h
  rw [Canon.asU64_norm, Canon.asU64_norm] at hu64
  cases a <;> cases b <;> simp_all [Value.asU64]

theorem IntentRecord.eq_of_norm_eq {r r' : IntentRecord}
    (h : norm (object r.fields) = norm (object r'.fields)) : r = r' := by
  have hdistinct : ∀ r : IntentRecord, (object r.fields).Distinct := fun r => by
    simp [Value.Distinct, fields]
  have hstr := Canon.str_eq_of_norm_eq (hdistinct r) (hdistinct r') h
  have hnum := Canon.u64_eq_of_norm_eq (hdistinct r) (hdistinct r') h
  have hget := Canon.get_eq_of_norm_eq (hdistinct r) (hdistinct r') h
  have hgrant := hstr "grant_id"
  have hexpires := hnum "expires_at_ms"
  have hoperation := hget "operation_id"
  have hepoch := hget "issuer_epoch"
  cases r
  cases r'
  simp [fields] at hgrant hexpires hoperation hepoch
  rw [hgrant, hexpires, norm_optionalValue_inj hoperation, norm_optionalNumber_inj hepoch]

theorem ReportManifest.eq_of_reads {m m' : ReportManifest}
    (hstr : ∀ name, (object (m.fields ++ rest)).str name = (object (m'.fields ++ rest')).str name)
    (hnum : ∀ name, (object (m.fields ++ rest)).u64 name = (object (m'.fields ++ rest')).u64 name)
    (hget : ∀ name, ((object (m.fields ++ rest)).get name).map norm =
      ((object (m'.fields ++ rest')).get name).map norm) : m = m' := by
  have hidentity : m.identity = m'.identity := by
    unfold fields at hstr hnum
    simp only [List.append_assoc] at hstr hnum
    exact ReportIdentity.eq_of_reads hstr hnum
  have hreport := hstr "report_id"
  have hobserved := hnum "observed_issuer_epoch"
  have hhistory := hget "history_id"
  have hpruned := hnum "pruned_through_ms"
  have hunmapped := hnum "unmapped_records"
  have htotal := hnum "total_records"
  have hdigest := hstr "records_digest"
  obtain ⟨identity, reportId, observed, ⟨historyId, pruned, unmapped⟩, total, digest⟩ := m
  obtain ⟨identity', reportId', observed', ⟨historyId', pruned', unmapped'⟩, total', digest'⟩ := m'
  simp [fields, ReportIdentity.fields] at hidentity hreport hobserved hhistory
  simp [fields, ReportIdentity.fields] at hpruned hunmapped htotal hdigest
  rw [hidentity, hreport, hobserved, norm_optionalValue_inj hhistory, hpruned, hunmapped, htotal,
    hdigest]

theorem ReportPage.toValue_eq_ok (h : p.toValue = .ok v) :
    v = object (p.manifest.fields ++ [("page_index", unsigned p.pageIndex),
      ("records", array (p.records.map fun r => object r.fields))]) := by
  have hrecords : ∀ (records : List IntentRecord) (values : List Value),
      records.mapM IntentRecord.toValue = .ok values →
        values = records.map fun r => object r.fields := by
    intro records
    induction records with
    | nil =>
      intro values h
      exact (Except.ok.inj h).symm
    | cons r rest ih =>
      intro values h
      rw [List.mapM_cons] at h
      obtain ⟨value, hvalue, h⟩ := bind_eq_ok.mp h
      obtain ⟨more, hmore, h⟩ := bind_eq_ok.mp h
      obtain ⟨-, -, hvalue⟩ := bind_eq_ok.mp hvalue
      rw [← Except.ok.inj h, ← Except.ok.inj hvalue, ih more hmore, List.map_cons]
  unfold toValue at h
  iterate 4
    obtain ⟨-, -, h⟩ := bind_eq_ok.mp h
  obtain ⟨values, hvalues, h⟩ := bind_eq_ok.mp h
  dsimp only at h
  obtain ⟨bytes, -, h⟩ := bind_eq_ok.mp h
  obtain ⟨-, -, h⟩ := bind_eq_ok.mp h
  rw [← Except.ok.inj h, hrecords p.records values hvalues]

/-- The page is read off its form. -/
theorem ReportPage.eq_of_norm_eq {p' : ReportPage} (hv : p.toValue = .ok v)
    (hv' : p'.toValue = .ok v') (h : norm v = norm v') : p = p' := by
  have hdistinct : ∀ p : ReportPage, (object (p.manifest.fields ++
      [("page_index", unsigned p.pageIndex),
        ("records", array (p.records.map fun r => object r.fields))])).Distinct := fun p => by
    simp [Value.Distinct, ReportManifest.fields, ReportIdentity.fields]
  rw [toValue_eq_ok hv, toValue_eq_ok hv'] at h
  have hstr := Canon.str_eq_of_norm_eq (hdistinct p) (hdistinct p') h
  have hnum := Canon.u64_eq_of_norm_eq (hdistinct p) (hdistinct p') h
  have hget := Canon.get_eq_of_norm_eq (hdistinct p) (hdistinct p') h
  have hmanifest := ReportManifest.eq_of_reads hstr hnum hget
  have hindex := hnum "page_index"
  have hrecords := hget "records"
  simp only [ReportManifest.fields, ReportIdentity.fields, List.cons_append, List.nil_append,
    Value.u64_cons, Value.get_cons, Value.asU64_unsigned] at hindex hrecords
  simp [Canon.norm, Canon.normAll_eq_map] at hindex hrecords
  -- the records are compared one by one
  have hall : p.records = p'.records := by
    have hinj : Function.Injective fun r : IntentRecord => norm (object r.fields) :=
      fun r r' => IntentRecord.eq_of_norm_eq
    apply List.map_injective_iff.mpr hinj
    exact hrecords
  cases p
  cases p'
  congr

theorem ReportRequest.eq_of_norm_eq (h : norm (object r.fields) = norm (object r'.fields)) :
    r = r' := by
  have hdistinct : ∀ r : ReportRequest, (object r.fields).Distinct := fun r => by
    simp [Value.Distinct, fields, ReportIdentity.fields]
  have hstr := Canon.str_eq_of_norm_eq (hdistinct r) (hdistinct r') h
  have hnum := Canon.u64_eq_of_norm_eq (hdistinct r) (hdistinct r') h
  have hget := Canon.get_eq_of_norm_eq (hdistinct r) (hdistinct r') h
  have hidentity := ReportIdentity.eq_of_reads hstr hnum
  have hchallenge := hstr "broker_challenge"
  have hreport := hget "report_id"
  have hindex := hnum "page_index"
  cases r
  cases r'
  simp [fields, ReportIdentity.fields] at hidentity hchallenge hreport hindex
  rw [hidentity, hchallenge, norm_optionalValue_inj hreport, hindex]

theorem ReportRequest.eq_of_form (hv : r.toValue = .ok v) (hv' : r'.toValue = .ok v')
    (h : norm v = norm v') : r = r' := by
  have hform : ∀ {r : ReportRequest} {v : Value}, r.toValue = .ok v → object r.fields = v := by
    intro r v h
    obtain ⟨-, -, h⟩ := bind_eq_ok.mp h
    obtain ⟨-, -, h⟩ := bind_eq_ok.mp h
    exact Except.ok.inj h
  rw [← hform hv, ← hform hv'] at h
  exact eq_of_norm_eq h

end Injective

end BlindPass.Recovery
