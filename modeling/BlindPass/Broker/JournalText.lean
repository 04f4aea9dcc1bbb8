import BlindPass.Broker.Writers
import BlindPass.Canon.Size
import BlindPass.Library.Text

/-!
# The lines of the journal as text

A consumption and a history header are written as one line of JSON each. A header is read by the
parser of documents and written again for comparison; a consumption is taken apart by hand. Both
readers accept exactly the lines that the writers make of the values they accept.
-/

namespace BlindPass.Broker

open Utf8 (encode decode?)
open Text (splitOnce parseU64)
open Canon (IsPlain isPlain_of_isAlphanum newline_notMem_toDigits)
open Fleet (Value isValidOpaqueId maxSafeInteger)

/-! ### Reading a consumption -/

/-- A number as `to_string` writes it, within bounds. -/
def canonicalU64 (accepts : ℕ → Bool) (text : List Char) : Option ℕ :=
  (parseU64 text).filter fun n => accepts n && (toString n).toList == text

/-- The operation and the epoch of a consumption, if the line has them, and the text of its
expiry. -/
def parseCorrelation (expiry : List Char) : Except String (List Char × Option ConsumedBinding) :=
  match splitOnce ",\"operation_id\":\"".toList expiry with
  | none => .ok (expiry, none)
  | some (expiry, correlation) =>
    match splitOnce "\",\"issuer_epoch\":".toList correlation with
    | none => .error "grant journal correlation is malformed"
    | some (operationId, epoch) =>
      if !isValidOpaqueId (String.ofList operationId) then
        .error "grant journal correlation is malformed"
      else
        match canonicalU64 (fun n => 1 ≤ n && n ≤ maxSafeInteger) epoch with
        | none => .error "grant journal epoch is malformed"
        | some issuerEpoch => .ok (expiry, some ⟨String.ofList operationId, issuerEpoch⟩)

def parseJournalLine (line : List UInt8) : Except String Consumption :=
  match decode? line with
  | none => .error "grant journal is not UTF-8"
  | some text =>
    match (text.dropPrefix? "\x7b\"grant_id\":\"".toList).bind fun value =>
        value.dropSuffix? "\x7d".toList with
    | none => .error "grant journal record is malformed"
    | some value =>
      match splitOnce "\",\"expires_at_ms\":".toList value with
      | none => .error "grant journal record is malformed"
      | some (id, expiry) =>
        if !isValidOpaqueId (String.ofList id) then .error "grant journal id is malformed"
        else
          match parseCorrelation expiry with
          | .error e => .error e
          | .ok (expiry, binding) =>
            match canonicalU64 (fun n => 0 < n) expiry with
            | none => .error "grant journal expiry is malformed"
            | some expiresAtMs => .ok ⟨String.ofList id, expiresAtMs, binding⟩

/-! ### Reading a header -/

namespace ConsumptionHistory

/-- `line`: the header's line, if it can be written. -/
def checkedLine (h : ConsumptionHistory) : Except String String :=
  if h.hasNonce && h.isWritable then .ok (h.line ++ "\n")
  else .error "grant history header is malformed"

/-- The names of a header's fields. -/
def fieldNames : List String :=
  ["history_version", "history_id", "tenant_id", "node_id", "issuer_key_id", "pruned_through_ms",
    "highest_issuer_epoch"]

/-- The header of an object with these fields. -/
def ofValue? (value : Value) : Option ConsumptionHistory := do
  return {
    historyId := ← value.str "history_id"
    tenantId := ← value.str "tenant_id"
    nodeId := ← value.str "node_id"
    issuerKeyId := ← value.str "issuer_key_id"
    prunedThroughMs := ← value.u64 "pruned_through_ms"
    highestIssuerEpoch := ← value.u64 "highest_issuer_epoch" }

def parse (line : List UInt8) : Except String ConsumptionHistory :=
  if 2047 < line.length then .error "grant history header is too large"
  else
    match decode? line with
    | none => .error "grant history header is malformed"
    | some text =>
      match Canon.parseJson (String.ofList text) with
      | .error _ => .error "grant history header is malformed"
      | .ok value =>
        if !value.hasFields fieldNames || value.u64 "history_version" != some 1 then
          .error "grant history header is malformed"
        else
          match ofValue? value with
          | none => .error "grant history header is malformed"
          | some history =>
            match history.checkedLine with
            | .error e => .error e
            | .ok text =>
              -- the line is compared without the newline at its end
              if encode (text.toList.rdropWhile Char.isWhitespace) ≠ line then
                .error "grant history header is not canonical"
              else .ok history

end ConsumptionHistory

/-! ### Characters of a line -/

section OpaqueId

variable {id : String}

theorem mem_opaqueId {c : Char} (h : isValidOpaqueId id = true) (hc : c ∈ id.toList) :
    c.isAlphanum = true ∨ c = '_' ∨ c = '-' := by
  rw [isValidOpaqueId, Bool.and_eq_true, List.all_eq_true] at h
  simpa [or_assoc] using h.2 c hc

theorem isPlain_opaqueId (h : isValidOpaqueId id = true) : ∀ c ∈ id.toList, IsPlain c := by
  intro c hc
  rcases mem_opaqueId h hc with hc | rfl | rfl
  · exact isPlain_of_isAlphanum hc
  all_goals decide

theorem quote_not_mem_opaqueId (h : isValidOpaqueId id = true) : '"' ∉ id.toList :=
  fun hc => (isPlain_opaqueId h _ hc).2.1 rfl

theorem newline_notMem {text : List Char} (h : ∀ c ∈ text, IsPlain c) : '\n' ∉ text :=
  fun hc => absurd (h _ hc).1 (by decide)

end OpaqueId

/-! ### The lines of consumptions -/

theorem canonicalU64_eq_some {accepts : ℕ → Bool} {text : List Char} {n : ℕ} :
    canonicalU64 accepts text = some n ↔
      accepts n = true ∧ n < 2 ^ 64 ∧ text = (toString n).toList := by
  rw [canonicalU64, Option.filter_eq_some_iff]
  constructor
  · rintro ⟨hparse, hcheck⟩
    rw [Bool.and_eq_true, beq_iff_eq] at hcheck
    exact ⟨hcheck.1, Text.lt_of_parseU64 hparse, hcheck.2.symm⟩
  · rintro ⟨haccepts, hlt, rfl⟩
    refine ⟨Text.parseU64_toString hlt, ?_⟩
    rw [haccepts, beq_self_eq_true]
    rfl

namespace Consumption

/-- The text of the line, without its newline. -/
def text (r : Consumption) : List Char :=
  (consumptionLine r.grantId r.expiresAtMs r.binding).toList

/-- The operation and the epoch in the line. -/
def correlation (binding : Option ConsumedBinding) : List Char :=
  binding.elim [] fun b => ",\"operation_id\":\"".toList ++
    (b.operationId.toList ++ ("\",\"issuer_epoch\":".toList ++ (toString b.issuerEpoch).toList))

variable {r : Consumption} {binding : Option ConsumedBinding}

theorem text_eq (r : Consumption) : r.text = "\x7b\"grant_id\":\"".toList ++ ((r.grantId.toList ++
    ("\",\"expires_at_ms\":".toList ++ ((toString r.expiresAtMs).toList ++
      correlation r.binding))) ++ "\x7d".toList) := by
  delta text consumptionLine correlation
  cases r.binding with
  | none => simp only [Option.elim_none, String.toList_append, List.append_assoc, String.toList_empty]
  | some => simp only [Option.elim_some, String.toList_append, List.append_assoc]

theorem isReadable_iff : r.isReadable = true ↔
    isValidOpaqueId r.grantId = true ∧ 0 < r.expiresAtMs ∧ r.expiresAtMs < 2 ^ 64 ∧
      ∀ b ∈ r.binding, isValidOpaqueId b.operationId = true ∧ 1 ≤ b.issuerEpoch ∧
        b.issuerEpoch ≤ maxSafeInteger := by
  cases hb : r.binding with
  | none | some => simp [isReadable, hb, Nat.pos_iff_ne_zero, and_assoc]

end Consumption

open Consumption (correlation)

theorem parseCorrelation_append {expiresAtMs : ℕ} {binding : Option ConsumedBinding}
    (h : ∀ b ∈ binding, isValidOpaqueId b.operationId = true ∧ 1 ≤ b.issuerEpoch ∧
      b.issuerEpoch ≤ maxSafeInteger) :
    parseCorrelation ((toString expiresAtMs).toList ++ correlation binding) =
      .ok ((toString expiresAtMs).toList, binding) := by
  -- neither a number nor an id has the first character of the separator behind it
  have hcomma : ',' ∉ (toString expiresAtMs).toList := Text.not_mem_toString rfl
  cases binding with
  | none =>
    have hnone : splitOnce ",\"operation_id\":\"".toList (toString expiresAtMs).toList = none :=
      Text.splitOnce_eq_none (c := ',') (by rfl) hcomma
    rw [correlation, Option.elim_none, List.append_nil, parseCorrelation, hnone]
  | some b =>
    obtain ⟨hid, hlow, hhigh⟩ := h b rfl
    have hepoch : canonicalU64 (fun n => 1 ≤ n && n ≤ maxSafeInteger)
        (toString b.issuerEpoch).toList = some b.issuerEpoch := by
      refine canonicalU64_eq_some.mpr ⟨by simp [hlow, hhigh], ?_, rfl⟩
      exact hhigh.trans_lt (by decide)
    rw [correlation, Option.elim_some, parseCorrelation,
      Text.splitOnce_append (c := ',') (by rfl) hcomma]
    dsimp only
    rw [Text.splitOnce_append (c := '"') (by rfl) (quote_not_mem_opaqueId hid)]
    dsimp only
    rw [String.ofList_toList, hid, hepoch]
    rfl

theorem eq_of_parseCorrelation {expiry expiry' : List Char} {binding : Option ConsumedBinding}
    (h : parseCorrelation expiry = .ok (expiry', binding)) :
    expiry = expiry' ++ correlation binding ∧
      ∀ b ∈ binding, isValidOpaqueId b.operationId = true ∧ 1 ≤ b.issuerEpoch ∧
        b.issuerEpoch ≤ maxSafeInteger := by
  unfold parseCorrelation at h
  split at h
  · cases h
    exact ⟨(List.append_nil _).symm, by simp⟩
  rename_i before after hsplit
  split at h
  · cases h
  rename_i operationId epoch hsplit'
  split at h
  · cases h
  rename_i hid
  split at h
  · cases h
  rename_i issuerEpoch hepoch
  cases h
  obtain ⟨hbounds, -, rfl⟩ := canonicalU64_eq_some.mp hepoch
  rw [Bool.and_eq_true, decide_eq_true_eq, decide_eq_true_eq] at hbounds
  refine ⟨?_, ?_⟩
  · rw [Text.eq_of_splitOnce hsplit, Text.eq_of_splitOnce hsplit', correlation]
    simp only [Option.elim_some, String.toList_ofList, List.append_assoc]
  · rintro _ ⟨⟩
    rw [Bool.not_eq_true, Bool.not_eq_false'] at hid
    exact ⟨hid, hbounds⟩

/-- The reader accepts the lines of the readable consumptions, and no others. -/
theorem parseJournalLine_eq_ok {line : List UInt8} {r : Consumption} :
    parseJournalLine line = .ok r ↔ r.isReadable = true ∧ line = encode r.text := by
  rw [Consumption.isReadable_iff]
  constructor
  · intro h
    unfold parseJournalLine at h
    split at h
    · cases h
    rename_i text hdecode
    split at h
    · cases h
    rename_i value hvalue
    obtain ⟨value', hprefix, hsuffix⟩ := Option.bind_eq_some_iff.mp hvalue
    split at h
    · cases h
    rename_i id expiry hsplit
    split at h
    · cases h
    rename_i hid
    split at h
    · cases h
    rename_i expiry' binding hcorrelation
    split at h
    · cases h
    rename_i expiresAtMs hexpires
    cases h
    obtain ⟨hexpiry, hbinding⟩ := eq_of_parseCorrelation hcorrelation
    obtain ⟨hpositive, hlt, rfl⟩ := canonicalU64_eq_some.mp hexpires
    rw [Bool.not_eq_true, Bool.not_eq_false'] at hid
    refine ⟨⟨hid, of_decide_eq_true hpositive, hlt, hbinding⟩, ?_⟩
    rw [Utf8.decode?_eq_some.mp hdecode, Text.dropPrefix?_eq_some.mp hprefix,
      Text.dropSuffix?_eq_some.mp hsuffix, Text.eq_of_splitOnce hsplit, hexpiry,
      Consumption.text_eq]
    simp only [String.toList_ofList, List.append_assoc]
  · rintro ⟨⟨hid, hpositive, hlt, hbinding⟩, rfl⟩
    have hexpires : canonicalU64 (fun n => 0 < n) (toString r.expiresAtMs).toList =
        some r.expiresAtMs :=
      canonicalU64_eq_some.mpr ⟨decide_eq_true hpositive, hlt, rfl⟩
    rw [parseJournalLine, Utf8.decode?_eq_some.mpr rfl, Consumption.text_eq]
    dsimp only
    rw [Text.dropPrefix?_eq_some.mpr rfl, Option.bind_some, Text.dropSuffix?_eq_some.mpr rfl]
    dsimp only
    rw [Text.splitOnce_append (c := '"') (by rfl) (quote_not_mem_opaqueId hid)]
    dsimp only
    rw [String.ofList_toList, hid, parseCorrelation_append hbinding]
    dsimp only
    rw [hexpires]
    rfl

theorem newline_notMem_text {r : Consumption} (h : r.isReadable = true) : '\n' ∉ r.text := by
  obtain ⟨hid, -, -, hbinding⟩ := Consumption.isReadable_iff.mp h
  have hcorrelation : '\n' ∉ correlation r.binding := by
    cases hb : r.binding with
    | none => exact List.not_mem_nil
    | some b =>
      simp [correlation, newline_notMem (isPlain_opaqueId (hbinding b hb).1),
        newline_notMem_toDigits]
  rw [Consumption.text_eq]
  simp [newline_notMem (isPlain_opaqueId hid), newline_notMem_toDigits, hcorrelation]

/-! ### The lines of headers -/

/-- A text in quotes. -/
def quoted (s : String) : List Char := '"' :: s.toList ++ ['"']

/-- A field of an object, without white space. -/
def fieldText (key : String) (value : List Char) : List Char := quoted key ++ ':' :: value

theorem isPlain_of_mem_base64 : ∀ c ∈ Fleet.base64Alphabet, IsPlain c := by decide

section Grammar

open Canon

/-- A text that needs no escapes denotes itself. -/
theorem stringText_quoted {s : String} (h : ∀ c ∈ s.toList, IsPlain c) :
    StringText (quoted s) s := by
  have hescape : s.toList.flatMap escapeChar = s.toList.flatMap fun c => [c] :=
    List.flatMap_congr fun c hc => escapeChar_plain (h c hc).1 (h c hc).2.1 (h c hc).2.2.1
  have hstring := stringText_writeString s
  rwa [writeString, hescape, List.flatMap_singleton'] at hstring

theorem valueText_quoted {s : String} (h : ∀ c ∈ s.toList, IsPlain c) :
    ValueText (quoted s) (.string s) :=
  .string (stringText_quoted h)

theorem valueText_toString {n : ℕ} (h : n ≤ maxSafeInteger) :
    ValueText (toString n).toList (.unsigned n) := by
  have hvalue : Nat.ofDigitChars 10 (Nat.toDigits 10 n) 0 = n :=
    Nat.ofDigitChars_toDigits (by decide) (by decide)
  have hnumber := NumberText.unsigned (intText_toDigits n) (hvalue.symm ▸ h)
  rw [hvalue] at hnumber
  rw [Text.toList_toString]
  exact .number hnumber

theorem fieldsText_one {key : String} {text : List Char} {v : Value}
    (hkey : ∀ c ∈ key.toList, IsPlain c) (hv : ValueText text v) :
    FieldsText (fieldText key text) [(key, v)] := by
  simpa [fieldText] using FieldsText.one isBlank_nil (stringText_quoted hkey) isBlank_nil
    isBlank_nil hv isBlank_nil

theorem fieldsText_cons {key : String} {text rest : List Char} {v : Value}
    {fields : List (String × Value)}
    (hkey : ∀ c ∈ key.toList, IsPlain c) (hv : ValueText text v)
    (hrest : FieldsText rest fields) :
    FieldsText (fieldText key text ++ ',' :: rest) ((key, v) :: fields) := by
  simpa [fieldText] using FieldsText.more isBlank_nil (stringText_quoted hkey) isBlank_nil
    isBlank_nil hv isBlank_nil hrest

end Grammar

namespace ConsumptionHistory

variable {h : ConsumptionHistory} {line : List UInt8}

/-- The fields of a header. -/
def fields (h : ConsumptionHistory) : List (String × Value) :=
  [("history_version", .unsigned 1), ("history_id", .string h.historyId),
    ("tenant_id", .string h.tenantId), ("node_id", .string h.nodeId),
    ("issuer_key_id", .string h.issuerKeyId), ("pruned_through_ms", .unsigned h.prunedThroughMs),
    ("highest_issuer_epoch", .unsigned h.highestIssuerEpoch)]

/-- The text of the fields. -/
def fieldsText (h : ConsumptionHistory) : List Char :=
  fieldText "history_version" ['1'] ++ ',' ::
    (fieldText "history_id" (quoted h.historyId) ++ ',' ::
    (fieldText "tenant_id" (quoted h.tenantId) ++ ',' ::
    (fieldText "node_id" (quoted h.nodeId) ++ ',' ::
    (fieldText "issuer_key_id" (quoted h.issuerKeyId) ++ ',' ::
    (fieldText "pruned_through_ms" (toString h.prunedThroughMs).toList ++ ',' ::
    fieldText "highest_issuer_epoch" (toString h.highestIssuerEpoch).toList)))))

theorem toList_pieces (p₀ p₁ p₂ p₃ p₄ p₅ p₆ a b c d e f : String) :
    (p₀ ++ a ++ p₁ ++ b ++ p₂ ++ c ++ p₃ ++ d ++ p₄ ++ e ++ p₅ ++ f ++ p₆).toList =
      p₀.toList ++ (a.toList ++ (p₁.toList ++ (b.toList ++ (p₂.toList ++ (c.toList ++ (p₃.toList ++
        (d.toList ++ (p₄.toList ++ (e.toList ++ (p₅.toList ++ (f.toList ++ p₆.toList))))))))))) := by
  simp only [String.toList_append, List.append_assoc]

theorem toList_line (h : ConsumptionHistory) : h.line.toList = '{' :: h.fieldsText ++ ['}'] := by
  delta line
  rw [toList_pieces]
  simp only [fieldsText, fieldText, quoted]
  generalize (toString h.prunedThroughMs).toList = pruned
  generalize (toString h.highestIssuerEpoch).toList = epoch
  simp

/-- What the two checks of `line` say of each field. -/
theorem fields_of_isWritable (hnonce : h.hasNonce = true) (hwritable : h.isWritable = true) :
    (∀ c ∈ h.historyId.toList, c ∈ Fleet.base64Alphabet) ∧ h.historyId.toList.length ≤ 64 ∧
      (∀ s ∈ [h.tenantId, h.nodeId, h.issuerKeyId], s = "" ∨ isValidOpaqueId s = true) ∧
      h.prunedThroughMs ≤ maxSafeInteger ∧ h.highestIssuerEpoch ≤ maxSafeInteger := by
  obtain ⟨nonce, hcheck⟩ : ∃ nonce : List UInt8, nonce.length = 32 ∧
      Fleet.base64UrlEncode nonce = h.historyId.toList := by
    unfold hasNonce at hnonce
    cases hread : Fleet.base64UrlDecode h.historyId.toList 32 with
    | none => simp [hread] at hnonce
    | some nonce => exact ⟨nonce, by simpa [hread] using hnonce⟩
  simp only [isWritable, Bool.and_eq_true, Bool.or_eq_true, decide_eq_true_eq] at hwritable
  refine ⟨fun c hc => ?_, ?_, fun s hs => ?_, hwritable.1.1.1.2, hwritable.1.1.2⟩
  · rw [← hcheck.2] at hc
    exact Fleet.mem_base64UrlEncode hc
  · have hlength := Fleet.length_base64UrlEncode_le nonce
    rw [hcheck.2] at hlength
    omega
  · rcases hwritable.1.1.1.1 with hempty | hvalid
    · exact .inl (by simpa using List.all_eq_true.mp hempty s hs)
    · exact .inr (List.all_eq_true.mp hvalid s hs)

theorem isPlain_of_field {s : String} (hs : s = "" ∨ isValidOpaqueId s = true) :
    ∀ c ∈ s.toList, IsPlain c := by
  rcases hs with rfl | hs
  · decide
  · exact isPlain_opaqueId hs

theorem utf8ByteSize_field {s : String} (hs : s = "" ∨ isValidOpaqueId s = true) :
    s.utf8ByteSize ≤ 128 := by
  rcases hs with rfl | hs
  · decide
  · simp only [isValidOpaqueId, Bool.and_eq_true, decide_eq_true_eq] at hs
    exact hs.1.2

theorem utf8ByteSize_toString {n : ℕ} (hn : n ≤ maxSafeInteger) :
    (toString n).utf8ByteSize ≤ 16 := by
  have hascii : ∀ c ∈ (toString n).toList, Utf8.IsAscii c := fun c hc =>
    (isPlain_of_isAlphanum (by simp [Char.isAlphanum, Text.isDigit_of_mem_toString hc])).2.2.2
  rw [Utf8.utf8ByteSize_eq, Utf8.length_encode_of_isAscii hascii, Text.toList_toString]
  apply (Nat.length_toDigits_le_iff (by decide) (by decide)).mpr
  exact hn.trans_lt (by decide)

/-- A header that can be written is short. -/
theorem length_encode_line (hnonce : h.hasNonce = true) (hwritable : h.isWritable = true) :
    (encode h.line.toList).length ≤ 2047 := by
  obtain ⟨hid, hlength, hscope, hpruned, hepoch⟩ := fields_of_isWritable hnonce hwritable
  have hidSize : h.historyId.utf8ByteSize ≤ 64 := by
    rw [Utf8.utf8ByteSize_eq, Utf8.length_encode_of_isAscii fun c hc =>
      (isPlain_of_mem_base64 c (hid c hc)).2.2.2]
    exact hlength
  have htenant := utf8ByteSize_field (hscope h.tenantId (by simp))
  have hnode := utf8ByteSize_field (hscope h.nodeId (by simp))
  have hkey := utf8ByteSize_field (hscope h.issuerKeyId (by simp))
  have hprunedSize := utf8ByteSize_toString hpruned
  have hepochSize := utf8ByteSize_toString hepoch
  rw [← Utf8.utf8ByteSize_eq, SharedJournal.utf8ByteSize_line]
  omega

/-- The parser of documents reads the line of a header. -/
theorem parseJson_line (hnonce : h.hasNonce = true) (hwritable : h.isWritable = true) :
    Canon.parseJson h.line = .ok (.object h.fields) := by
  obtain ⟨hid, -, hscope, hpruned, hepoch⟩ := fields_of_isWritable hnonce hwritable
  have htext : Canon.FieldsText h.fieldsText h.fields := by
    refine fieldsText_cons (by decide) (valueText_toString (n := 1) (by decide)) ?_
    refine fieldsText_cons (by decide)
      (valueText_quoted fun c hc => isPlain_of_mem_base64 c (hid c hc)) ?_
    refine fieldsText_cons (by decide)
      (valueText_quoted (isPlain_of_field (hscope h.tenantId (by simp)))) ?_
    refine fieldsText_cons (by decide)
      (valueText_quoted (isPlain_of_field (hscope h.nodeId (by simp)))) ?_
    refine fieldsText_cons (by decide)
      (valueText_quoted (isPlain_of_field (hscope h.issuerKeyId (by simp)))) ?_
    refine fieldsText_cons (by decide) (valueText_toString hpruned) ?_
    exact fieldsText_one (by decide) (valueText_toString hepoch)
  have hnodup : (h.fields.map Prod.fst).Nodup := by
    rw [show h.fields.map Prod.fst = fieldNames from rfl]
    decide
  have hdenotes : Canon.Denotes h.line.toList (.object h.fields) := by
    have hwhole := Canon.Denotes.mk Canon.isBlank_nil (.object htext hnodup) Canon.isBlank_nil
    rwa [List.append_nil, List.nil_append, ← toList_line] at hwhole
  have hsize := length_encode_line hnonce hwritable
  refine Canon.parseJson_of_denotes (hsize.trans (by decide)) hdenotes ?_ ?_
  · simp [fields, Value.depth, Value.depthFields, Canon.maxDepth]
  · simp [fields, Value.count, Value.countFields, Canon.maxValues]

theorem rdropWhile_line (h : ConsumptionHistory) :
    (h.line ++ "\n").toList.rdropWhile Char.isWhitespace = h.line.toList := by
  rw [String.toList_append, show "\n".toList = ['\n'] from rfl,
    List.rdropWhile_concat_pos Char.isWhitespace _ _ (by decide), toList_line,
    List.rdropWhile_concat_neg Char.isWhitespace _ _ (by decide)]

theorem checkedLine_eq_ok {text : String} : h.checkedLine = .ok text ↔
    h.hasNonce = true ∧ h.isWritable = true ∧ text = h.line ++ "\n" := by
  unfold checkedLine
  split
  · rename_i hcheck
    rw [Bool.and_eq_true] at hcheck
    rw [Except.ok.injEq]
    exact ⟨fun heq => ⟨hcheck.1, hcheck.2, heq.symm⟩, fun heq => heq.2.2.symm⟩
  · rename_i hcheck
    constructor
    · nofun
    · rintro ⟨hnonce, hwritable, -⟩
      rw [hnonce, hwritable] at hcheck
      exact absurd rfl hcheck

/-- The reader accepts the lines of the headers that can be written, and no others. -/
theorem parse_eq_ok : parse line = .ok h ↔
    h.hasNonce = true ∧ h.isWritable = true ∧ line = encode h.line.toList := by
  constructor
  · intro hparse
    unfold parse at hparse
    iterate 6
      split at hparse
      · cases hparse
    rename_i history _ text htext
    obtain ⟨hnonce, hwritable, rfl⟩ := checkedLine_eq_ok.mp htext
    rw [rdropWhile_line] at hparse
    split at hparse
    · cases hparse
    rename_i hcanonical
    cases hparse
    exact ⟨hnonce, hwritable, (not_not.mp hcanonical).symm⟩
  · rintro ⟨hnonce, hwritable, hencode⟩
    have hsize := length_encode_line hnonce hwritable
    have hfields : ((Value.object h.fields).hasFields fieldNames) = true := by
      simp [Value.hasFields, Value.asObject, fields, fieldNames]
    have hversion : (Value.object h.fields).u64 "history_version" = some 1 := rfl
    have hvalue : ofValue? (.object h.fields) = some h := rfl
    have hline := checkedLine_eq_ok.mpr ⟨hnonce, hwritable, rfl⟩
    rw [hencode, parse, if_neg (not_lt.mpr hsize), Utf8.decode?_eq_some.mpr rfl]
    dsimp only
    rw [String.ofList_toList, parseJson_line hnonce hwritable]
    dsimp only
    rw [hfields, hversion, if_neg (by decide), hvalue]
    dsimp only
    rw [hline]
    dsimp only
    rw [rdropWhile_line, if_neg (not_not.mpr rfl)]

theorem newline_notMem_line (hnonce : h.hasNonce = true) (hwritable : h.isWritable = true) :
    '\n' ∉ h.line.toList := by
  obtain ⟨hid, -, hscope, -, -⟩ := fields_of_isWritable hnonce hwritable
  have hnone := fun s hs => newline_notMem (isPlain_of_field (hscope s hs))
  rw [toList_line, fieldsText]
  simp [fieldText, quoted, newline_notMem fun c hc => isPlain_of_mem_base64 c (hid c hc),
    hnone _ (.head _), hnone _ (.tail _ (.head _)), hnone _ (.tail _ (.tail _ (.head _))),
    newline_notMem_toDigits]

end ConsumptionHistory

end BlindPass.Broker
