import BlindPass.Broker.SessionSnapshot
import BlindPass.Fleet.Codec

/-!
# The session journal's document is read back

A table is sound if a reader of its document would accept it: every record passes the reader's
checks, the records are filed under their operations, and no two stand in each other's way. The
document of a sound table is read back as the same table, and whatever is read from a document is
sound at the document's version. Marking the unfinished records uncertain makes a sound table of
an older version one of the current version.
-/

namespace BlindPass.Broker

open Fleet (Value)
open Canon (norm Writable)
open SessionRecord (clashes demote fitsState isClosed isConsistent)
open Std (TreeMap)

/-! ### Fields in any order

The writer sorts the fields of an object; the reader looks them up. -/

section Norm

variable {v : Value} {depth : ℕ}

theorem nullableText_norm (h : v.Distinct) (key : String) :
    nullableText (norm v) key = nullableText v key := by
  rw [nullableText, nullableText, Canon.get_norm h]
  cases v.get key with
  | none => rfl
  | some x =>
    cases x with
    | integer n =>
      rw [Option.map_some, Canon.norm, Canon.normInteger]
      by_cases hn : n < 0
      · rw [if_pos hn]
      · rw [if_neg hn]
    | unsigned n =>
      rw [Option.map_some, Canon.norm, Canon.normInteger, if_neg (Int.not_lt.mpr (Int.natCast_nonneg n))]
    | _ => simp [Canon.norm]

theorem nullableNumber_norm (h : v.Distinct) (key : String) :
    nullableNumber (norm v) key = nullableNumber v key := by
  rw [nullableNumber, nullableNumber, Canon.get_norm h]
  cases v.get key with
  | none => rfl
  | some x =>
    by_cases hx : x = .null
    · rw [hx, Option.map_some, Canon.norm]
    · have hnorm : norm x ≠ .null := fun h => hx (Canon.norm_eq_null.mp h)
      simp only [Option.map_some]
      rw [Canon.asU64_norm]

theorem parseHandle_norm (h : v.Distinct) : parseHandle (norm v) = parseHandle v := by
  simp only [parseHandle, text, integer, Canon.str_norm h, Canon.u64_norm h, Canon.hasFields_norm]

theorem parseHandleField_norm (h : Writable v depth) :
    parseHandleField (norm v) = parseHandleField v := by
  rw [parseHandleField, parseHandleField, Canon.get_norm h.distinct]
  cases hget : v.get "revoke_handle" with
  | none => rfl
  | some x =>
    by_cases hx : x = .null
    · rw [hx, Option.map_some, Canon.norm]
    · have hnorm : norm x ≠ .null := fun h => hx (Canon.norm_eq_null.mp h)
      simp only [Option.map_some]
      rw [parseHandle_norm (h.get hget).distinct]

theorem parseBinding_norm (h : v.Distinct) (version : ℕ) :
    parseBinding (norm v) version = parseBinding v version := by
  simp only [parseBinding, readBinding, text, Canon.str_norm h, Canon.hasFields_norm, nullableText_norm h]

theorem parseBindingField_norm (h : Writable v depth) (version : ℕ) :
    parseBindingField (norm v) version = parseBindingField v version := by
  rw [parseBindingField, parseBindingField, Canon.get_norm h.distinct]
  cases hget : v.get "binding" with
  | none => rfl
  | some =>
    simp only [Option.map_some, Option.bind_some]
    rw [parseBinding_norm (h.get hget).distinct]

theorem parseRecord_norm (h : Writable v depth) (highWater version : ℕ) :
    parseRecord (norm v) highWater version = parseRecord v highWater version := by
  have hd := h.distinct
  simp only [parseRecord, readRecord, text, integer, Canon.str_norm hd, Canon.u64_norm hd,
    Canon.hasFields_norm, nullableText_norm hd, nullableNumber_norm hd, parseHandleField_norm h,
    parseBindingField_norm h]

end Norm

/-! ### A record is read back -/

theorem parseHandle_handleValue (handle : RevokeHandle) :
    parseHandle (handleValue handle) = some handle := by
  cases handle with
  | fixture =>
    simp [handleValue, parseHandle, text, Value.hasFields, Value.asObject]
  | grafanaManaged account userId orgId =>
    have huser := userId.toNat_lt
    have horg := orgId.toNat_lt
    simp [handleValue, parseHandle, text, integer, Value.hasFields, Value.asObject, toU32, huser, horg]

variable {key : String}

theorem nullableText_eq {v : Value} {value : Option String}
    (h : v.get key = some (optionalText value)) : nullableText v key = some value := by
  rw [nullableText, h]
  cases value <;> rfl

theorem nullableNumber_eq {v : Value} {value : Option ℕ}
    (h : v.get key = some (optionalNumber value)) : nullableNumber v key = some value := by
  rw [nullableNumber, h]
  cases value <;> rfl

theorem parseBinding_bindingValue {b : SessionBinding} (h : b.isValid) :
    parseBinding (bindingValue b) 4 = some b := by
  have hkey : nullableText (bindingValue b) "request_event_key" = some b.requestEventKey :=
    nullableText_eq (by simp [bindingValue])
  have hnames : (bindingValue b).hasFields (["node_id", "workload_id", "operation_id",
      "idempotency_key", "workload_unit", "workload_invocation", "resource", "recipe_fingerprint",
      "account"] ++ ["request_event_key"]) = true := by
    simp [bindingValue, Value.hasFields, Value.asObject]
  simp only [parseBinding, readBinding, sinceVersion, le_refl, if_true, hnames, hkey, text]
  simp [bindingValue, h]

theorem parseHandleField_eq {v : Value} {handle : Option RevokeHandle}
    (h : v.get "revoke_handle" = some (handle.elim .null handleValue)) :
    parseHandleField v = some handle := by
  rw [parseHandleField, h]
  cases handle with
  | none => rfl
  | some handle =>
    have hvalue : handleValue handle ≠ .null := by cases handle <;> simp [handleValue]
    simp only [Option.elim_some]
    rw [parseHandle_handleValue]
    rfl

theorem parseRecord_recordValue {r : SessionRecord} {highWater : ℕ} (hb : r.binding.isValid)
    (hr : r.isConsistent highWater 4) : parseRecord (recordValue r) highWater 4 = some r := by
  have hnames : (recordValue r).hasFields (["binding", "state", "created_at_ms", "closed_at_ms",
      "original_deadline_ms", "revoke_handle", "browser_unit", "browser_invocation"] ++
      ["helper_unit", "helper_invocation"]) = true := by
    simp [recordValue, Value.hasFields, Value.asObject]
  have hbinding : parseBindingField (recordValue r) 4 = some r.binding := by
    rw [parseBindingField, show (recordValue r).get "binding" = some (bindingValue r.binding) by
      simp [recordValue], Option.bind_some, parseBinding_bindingValue hb]
  have hhandle : parseHandleField (recordValue r) = some r.revokeHandle :=
    parseHandleField_eq (by simp [recordValue])
  have hstate : (recordValue r).str "state" = some r.state.name := by simp [recordValue]
  have hcreated : (recordValue r).u64 "created_at_ms" = some r.createdAtMs := by simp [recordValue]
  have hclosed : nullableNumber (recordValue r) "closed_at_ms" = some r.closedAtMs :=
    nullableNumber_eq (by simp [recordValue])
  have hdeadline : nullableNumber (recordValue r) "original_deadline_ms" =
      some r.originalDeadlineMs := nullableNumber_eq (by simp [recordValue])
  have hhelper : nullableText (recordValue r) "helper_unit" = some r.helperUnit :=
    nullableText_eq (by simp [recordValue])
  have hhelperInvocation : nullableText (recordValue r) "helper_invocation" =
      some r.helperInvocation := nullableText_eq (by simp [recordValue])
  have hbrowser : nullableText (recordValue r) "browser_unit" = some r.browserUnit :=
    nullableText_eq (by simp [recordValue])
  have hbrowserInvocation : nullableText (recordValue r) "browser_invocation" =
      some r.browserInvocation := nullableText_eq (by simp [recordValue])
  have hversion : 3 ≤ 4 := by decide
  simp only [parseRecord, readRecord, sinceVersion, if_pos hversion, hnames, hbinding, hhandle, text,
    integer, hstate,
    hcreated, hclosed, hdeadline, hhelper, hhelperInvocation, hbrowser, hbrowserInvocation,
    Option.bind_eq_bind, Option.bind_some, SessionState.parse_name]
  simp [hr]

/-! ### A table is read back -/

namespace SessionSnapshot

/-- The records would be accepted by a reader of a document of this version, at this time. -/
structure SoundRecords (highWater version : ℕ) (records : TreeMap String SessionRecord) :
    Prop where
  filed : ∀ (k : String) (r : SessionRecord), records[k]? = some r → k = r.binding.operationId
  valid : ∀ (k : String) (r : SessionRecord), records[k]? = some r → r.binding.isValid
  consistent : ∀ (k : String) (r : SessionRecord), records[k]? = some r →
    r.isConsistent highWater version
  apart : ∀ (k : String) (r : SessionRecord) (k' : String) (r' : SessionRecord),
    records[k]? = some r → records[k']? = some r' → k ≠ k' → r.clashes r' = false

/-- The table would be accepted by a reader of a document of this version. -/
structure Sound (version : ℕ) (s : SessionSnapshot) : Prop
    extends SoundRecords s.timeHighWaterMs version s.records where
  bounded : s.records.size ≤ maxSessionRecords
  timely : s.timeHighWaterMs ≤ maxSessionTime

/-- Two tables with the same records and the same time. -/
def Agrees (s t : SessionSnapshot) : Prop :=
  s.timeHighWaterMs = t.timeHighWaterMs ∧ ∀ k : String, s.records[k]? = t.records[k]?

variable {s : SessionSnapshot} {version : ℕ}

theorem mem_values {r : SessionRecord} : r ∈ s.values ↔ ∃ k : String, s.records[k]? = some r := by
  simp only [values, List.mem_map, Prod.exists, exists_eq_right, TreeMap.mem_toList_iff_getElem?_eq_some]

/-- Any two records of a sound table are filed apart and do not clash. -/
theorem Sound.pairwise (h : s.Sound version) : s.values.Pairwise fun r r' =>
    r.binding.operationId ≠ r'.binding.operationId ∧ r.clashes r' = false := by
  rw [values, List.pairwise_map]
  apply (TreeMap.distinct_keys_toList (t := s.records)).imp_of_mem
  intro e e' he he' hne
  rw [TreeMap.mem_toList_iff_getElem?_eq_some] at he he'
  have hkey : e.1 ≠ e'.1 := fun heq => hne (by rw [heq]; exact Std.ReflCmp.compare_self)
  refine ⟨?_, h.apart _ _ _ _ he he' hkey⟩
  rwa [← h.filed _ _ he, ← h.filed _ _ he']

/-! ### Counting values -/

theorem count_optionalText (value : Option String) : (optionalText value).count = 1 := by
  cases value <;> rfl

theorem count_optionalNumber (value : Option ℕ) : (optionalNumber value).count = 1 := by
  cases value <;> rfl

theorem count_recordValue_le (r : SessionRecord) : (recordValue r).count ≤ 25 := by
  have hhandle : (r.revokeHandle.elim .null handleValue).count ≤ 5 := by
    rcases r.revokeHandle with _ | _ | _ <;> simp [handleValue, Value.count, Value.countFields]
  simp only [recordValue, bindingValue, Value.count, Value.countFields, count_optionalText,
    count_optionalNumber]
  omega

theorem count_value_le (h : s.records.size ≤ maxSessionRecords) : s.value.count ≤ Canon.maxValues := by
  have hitems : ((s.values.map recordValue).map Value.count).sum ≤ s.values.length * 25 := by
    rw [List.map_map]
    apply (List.sum_le_card_nsmul _ 25 _).trans
    · simp
    · intro n hn
      obtain ⟨r, -, rfl⟩ := List.mem_map.mp hn
      exact count_recordValue_le r
  have hlength : s.values.length ≤ 1024 := by
    rw [values, List.length_map, TreeMap.length_toList]
    exact h
  simp only [value, Value.count, Value.countFields, Canon.countItems_eq_sum, Canon.maxValues]
  omega

/-! ### Taking records up -/

theorem guard_bind_eq_some {α : Type} {p : Prop} [Decidable p] {f : Unit → Option α} {a : α} :
    (guard p >>= f) = some a ↔ p ∧ f () = some a := by
  by_cases h : p <;> simp [h, guard, failure]

variable {decoded : TreeMap String SessionRecord} {v : Value} {bytes : List UInt8}

/-- Taking up a record that is sound and that no record taken up before clashes with. -/
theorem decodeRecord_eq {r : SessionRecord} {highWater : ℕ}
    (hparse : parseRecord v highWater version = some r)
    (hfiled : ∀ (k : String) (p : SessionRecord), decoded[k]? = some p → k = p.binding.operationId)
    (hapart : ∀ (k : String) (p : SessionRecord), decoded[k]? = some p →
      p.binding.operationId ≠ r.binding.operationId ∧ p.clashes r = false) :
    decodeRecord highWater version decoded v = some (decoded.insert r.binding.operationId r) := by
  have hclash : decoded.toList.any (fun e => e.2.clashes r) = false := by
    rw [List.any_eq_false]
    intro e he
    rw [TreeMap.mem_toList_iff_getElem?_eq_some] at he
    simp [(hapart _ _ he).2]
  have hnew : decoded.contains r.binding.operationId = false := by
    by_contra hmem
    have hmem : r.binding.operationId ∈ decoded := by simpa using hmem
    obtain ⟨p, hp⟩ := Option.isSome_iff_exists.mp (TreeMap.isSome_getElem?_iff_mem.mpr hmem)
    exact (hapart _ _ hp).1 (hfiled _ _ hp).symm
  simp [decodeRecord, hparse, hclash, hnew]

/-- Records that are read one by one and do not clash are all taken up. -/
theorem foldlM_decodeRecord {records : List SessionRecord} {highWater : ℕ}
    (hparse : ∀ r ∈ records, parseRecord (norm (recordValue r)) highWater version = some r)
    (hpairwise : records.Pairwise fun r r' =>
      r.binding.operationId ≠ r'.binding.operationId ∧ r.clashes r' = false)
    (hfiled : ∀ (k : String) (p : SessionRecord), decoded[k]? = some p → k = p.binding.operationId)
    (hapart : ∀ (k : String) (p : SessionRecord), decoded[k]? = some p → ∀ r ∈ records,
      p.binding.operationId ≠ r.binding.operationId ∧ p.clashes r = false) :
    ∃ decoded', (records.map fun r => norm (recordValue r)).foldlM
        (decodeRecord highWater version) decoded = some decoded' ∧
      ∀ (k : String) (r : SessionRecord), decoded'[k]? = some r ↔
        decoded[k]? = some r ∨ r ∈ records ∧ k = r.binding.operationId := by
  induction records generalizing decoded with
  | nil => exact ⟨decoded, rfl, fun k r => by simp⟩
  | cons r rest ih =>
    obtain ⟨hr, hrest⟩ := List.pairwise_cons.mp hpairwise
    have hstep := decodeRecord_eq (hparse r (.head _)) hfiled
      fun k p hp => hapart k p hp r (.head _)
    -- what is taken up now is either older or `r` itself
    have hinsert : ∀ (k : String) (p : SessionRecord),
        (decoded.insert r.binding.operationId r)[k]? = some p ↔
          decoded[k]? = some p ∨ p = r ∧ k = r.binding.operationId := by
      intro k p
      rw [Table.getElem?_insert]
      by_cases hk : r.binding.operationId = k
      · have hnone : ∀ p, decoded[k]? = some p → False := fun p hp =>
          (hapart k p hp r (.head _)).1 ((hfiled k p hp).symm.trans hk.symm)
        have hnone : decoded[k]? = none := by
          cases hd : decoded[k]? with
          | none => rfl
          | some p => exact (hnone p hd).elim
        simp [hk, hnone, eq_comm]
      · simp [Ne.symm hk]
    have hfiled' : ∀ (k : String) (p : SessionRecord),
        (decoded.insert r.binding.operationId r)[k]? = some p → k = p.binding.operationId := by
      intro k p hp
      rcases (hinsert k p).mp hp with hp | ⟨rfl, hk⟩
      · exact hfiled k p hp
      · exact hk
    have hapart' : ∀ (k : String) (p : SessionRecord),
        (decoded.insert r.binding.operationId r)[k]? = some p → ∀ r' ∈ rest,
          p.binding.operationId ≠ r'.binding.operationId ∧ p.clashes r' = false := by
      intro k p hp r' hr'
      rcases (hinsert k p).mp hp with hp | ⟨rfl, -⟩
      · exact hapart k p hp r' (.tail _ hr')
      · exact hr r' hr'
    obtain ⟨decoded', hfold, hget⟩ :=
      ih (fun r' hr' => hparse r' (.tail _ hr')) hrest hfiled' hapart'
    refine ⟨decoded', ?_, fun k p => ?_⟩
    · rw [List.map_cons, List.foldlM_cons, hstep]
      exact hfold
    rw [hget, hinsert, List.mem_cons]
    constructor
    · rintro ((hp | ⟨rfl, hk⟩) | ⟨hp, hk⟩)
      · exact .inl hp
      · exact .inr ⟨.inl rfl, hk⟩
      · exact .inr ⟨.inr hp, hk⟩
    · rintro (hp | ⟨rfl | hp, hk⟩)
      · exact .inl (.inl hp)
      · exact .inl (.inr ⟨rfl, hk⟩)
      · exact .inr ⟨hp, hk⟩

theorem body_eq_some : s.body = some bytes ↔
    Canon.canonicalizeValue s.value = .ok bytes ∧ bytes.length ≤ maxSessionBytes := by
  cases h : Canon.canonicalizeValue s.value with
  | error => simp [body, h, Except.toOption]
  | ok =>
    simp only [body, h, Except.toOption, Option.bind_eq_bind, Option.bind_some]
    rw [← Option.bind_eq_bind, guard_bind_eq_some]
    constructor
    · rintro ⟨hle, heq⟩
      cases heq
      exact ⟨rfl, hle⟩
    · rintro ⟨heq, hle⟩
      cases heq
      exact ⟨hle, rfl⟩

theorem ofValue_norm_value (h : s.Sound 4) (hwritable : Writable s.value 0) :
    ∃ t, ofValue (norm s.value) = some t ∧ t.Agrees s := by
  have hd := hwritable.distinct
  have hrecords : s.value.get "records" = some (.array (s.values.map recordValue)) := by
    simp [value]
  have hitems : ∀ r ∈ s.values, Writable (recordValue r) 2 := by
    intro r hr
    have harray := hwritable.get hrecords
    rw [Writable] at harray
    exact Canon.writableItems_iff.mp harray.2 _ (List.mem_map_of_mem hr)
  have hparse : ∀ r ∈ s.values,
      parseRecord (norm (recordValue r)) s.timeHighWaterMs 4 = some r := by
    intro r hr
    obtain ⟨k, hk⟩ := mem_values.mp hr
    rw [parseRecord_norm (hitems r hr)]
    exact parseRecord_recordValue (h.valid k r hk) (h.consistent k r hk)
  obtain ⟨decoded, hfold, hget⟩ : ∃ decoded', (s.values.map fun r => norm (recordValue r)).foldlM
      (decodeRecord s.timeHighWaterMs 4) ∅ = some decoded' ∧ _ := foldlM_decodeRecord hparse h.pairwise
    (fun k p hp => absurd hp (by simp)) (fun k p hp => absurd hp (by simp))
  have hlength : s.values.length ≤ maxSessionRecords := by
    rw [values, List.length_map, TreeMap.length_toList]
    exact h.bounded
  refine ⟨⟨decoded, s.timeHighWaterMs⟩, ?_, rfl, fun k => ?_⟩
  · have hversion : s.value.u64 "version" = some 4 := by simp [value]
    have hhigh : s.value.u64 "time_high_water_ms" = some s.timeHighWaterMs := by simp [value]
    have hnames : s.value.hasFields ["version", "time_high_water_ms", "records"] = true := by
      simp [value, Value.hasFields, Value.asObject]
    have harray : ((norm s.value).get "records").bind Value.asArray =
        some (s.values.map fun r => norm (recordValue r)) := by
      rw [Canon.get_norm hd, hrecords, Option.map_some, Option.bind_some, Canon.asArray_norm]
      simp [Value.asArray, Function.comp_def]
    simp only [ofValue, integer, Canon.hasFields_norm, Canon.u64_norm hd, hversion, hhigh, hnames,
      harray, List.length_map, Option.bind_eq_bind, Option.bind_some]
    simp [h.timely, hlength, hfold]
  · ext r
    rw [hget]
    constructor
    · rintro (hempty | ⟨hr, rfl⟩)
      · simp at hempty
      · obtain ⟨k, hk⟩ := mem_values.mp hr
        rwa [← h.filed k r hk]
    · intro hk
      exact .inr ⟨mem_values.mpr ⟨k, hk⟩, h.filed k r hk⟩

/-- The document of a sound table is read back as that table. -/
theorem load_body (h : s.Sound 4) (hbody : s.body = some bytes) :
    ∃ t, load bytes = some t ∧ t.Agrees s := by
  obtain ⟨hbytes, -⟩ := body_eq_some.mp hbody
  obtain ⟨form, rfl, hparse⟩ :=
    Canon.parseJson_of_canonicalizeValue hbytes (count_value_le h.bounded)
  obtain ⟨text, hwrite, -⟩ := Canon.canonicalizeValue_eq_ok.mp hbytes
  obtain ⟨t, ht, hagrees⟩ := ofValue_norm_value h (Canon.writable_of_writeValue hwrite)
  refine ⟨t, ?_, hagrees⟩
  rw [load, Utf8.decode?_eq_some.mpr rfl]
  simp [hparse, Except.toOption, ht]

/-! ### What is read is sound -/

theorem parseRecord_spec {r : SessionRecord} {highWater : ℕ}
    (h : parseRecord v highWater version = some r) :
    r.binding.isValid ∧ r.isConsistent highWater version := by
  obtain ⟨hread, hconsistent⟩ := Option.filter_eq_some_iff.mp h
  refine ⟨?_, hconsistent⟩
  simp only [readRecord, Option.bind_eq_bind, Option.bind_eq_some_iff] at hread
  obtain ⟨_, _, b, hb, _, _, _, _, _, _, _, _, _, _, _, _, _, _, _, _, _, _, _, _, hr⟩ := hread
  rw [← Option.some.inj hr]
  obtain ⟨x, -, hx⟩ := Option.bind_eq_some_iff.mp hb
  exact (Option.filter_eq_some_iff.mp hx).2

theorem decodeRecord_spec {highWater : ℕ} {decoded' : TreeMap String SessionRecord}
    (h : decodeRecord highWater version decoded v = some decoded') :
    ∃ r : SessionRecord, r.binding.isValid ∧ r.isConsistent highWater version ∧
      (∀ (k : String) (p : SessionRecord), decoded[k]? = some p → p.clashes r = false) ∧
      decoded' = decoded.insert r.binding.operationId r := by
  obtain ⟨r, hparse, h⟩ := Option.bind_eq_some_iff.mp h
  obtain ⟨hclash, h⟩ := guard_bind_eq_some.mp h
  obtain ⟨-, h⟩ := guard_bind_eq_some.mp h
  have hspec := parseRecord_spec hparse
  refine ⟨r, hspec.1, hspec.2, fun k p hp => ?_, (Option.some.inj h).symm⟩
  have hnone : decoded.toList.any (fun e => e.2.clashes r) = false := by simpa using hclash
  have he := TreeMap.mem_toList_iff_getElem?_eq_some.mpr hp
  simpa using List.any_eq_false.mp hnone _ he

theorem clashes_comm (r r' : SessionRecord) : r.clashes r' = r'.clashes r := by
  simp only [clashes, Bool.beq_comm, Bool.and_comm]

section Records

variable {highWater : ℕ} {records : TreeMap String SessionRecord} {r : SessionRecord}

theorem SoundRecords.empty : SoundRecords highWater version ∅ where
  filed k r h := by simp at h
  valid k r h := by simp at h
  consistent k r h := by simp at h
  apart k r k' r' h := by simp at h

/-- A record may be added, or may replace the one of its operation, if it clashes with no other. -/
theorem SoundRecords.insert (h : SoundRecords highWater version records) (hvalid : r.binding.isValid)
    (hconsistent : r.isConsistent highWater version)
    (hapart : ∀ (k : String) (p : SessionRecord), records[k]? = some p →
      k ≠ r.binding.operationId → p.clashes r = false) :
    SoundRecords highWater version (records.insert r.binding.operationId r) := by
  have hcases : ∀ (k : String) (p : SessionRecord),
      (records.insert r.binding.operationId r)[k]? = some p →
        k = r.binding.operationId ∧ p = r ∨ k ≠ r.binding.operationId ∧ records[k]? = some p := by
    intro k p hp
    rw [Table.getElem?_insert] at hp
    by_cases hk : k = r.binding.operationId
    · rw [if_pos hk] at hp
      exact .inl ⟨hk, (Option.some.inj hp).symm⟩
    · rw [if_neg hk] at hp
      exact .inr ⟨hk, hp⟩
  constructor
  case filed =>
    intro k p hp
    rcases hcases k p hp with ⟨rfl, rfl⟩ | ⟨-, hp⟩
    · rfl
    · exact h.filed k p hp
  case valid =>
    intro k p hp
    rcases hcases k p hp with ⟨rfl, rfl⟩ | ⟨-, hp⟩
    · exact hvalid
    · exact h.valid k p hp
  case consistent =>
    intro k p hp
    rcases hcases k p hp with ⟨rfl, rfl⟩ | ⟨-, hp⟩
    · exact hconsistent
    · exact h.consistent k p hp
  case apart =>
    intro k p k' p' hp hp' hne
    rcases hcases k p hp with ⟨hk, hpr⟩ | ⟨hk, hold⟩
    · rcases hcases k' p' hp' with ⟨hk', -⟩ | ⟨hk', hold'⟩
      · exact absurd (hk.trans hk'.symm) hne
      · rw [clashes_comm, hpr]
        exact hapart k' p' hold' hk'
    · rcases hcases k' p' hp' with ⟨-, hpr⟩ | ⟨-, hold'⟩
      · rw [hpr]
        exact hapart k p hold hk
      · exact h.apart k p k' p' hold hold' hne

theorem clashes_of_image {p p' r r' : SessionRecord} (hb : r.binding = p.binding)
    (hb' : r'.binding = p'.binding) (hc : p.isClosed → r.isClosed)
    (hc' : p'.isClosed → r'.isClosed) (h : p.clashes p' = false) : r.clashes r' = false := by
  simp only [clashes, hb, hb', Bool.or_eq_false_iff, Bool.and_eq_false_iff,
    Bool.not_eq_false'] at h ⊢
  exact ⟨h.1, h.2.imp (Or.imp hc hc') id⟩

variable {records' : TreeMap String SessionRecord}

/-- A table stays sound if every record comes from one of the same binding and none is opened
again. -/
theorem SoundRecords.image {highWater' version' : ℕ} (h : SoundRecords highWater version records)
    (himage : ∀ (k : String) (r : SessionRecord), records'[k]? = some r →
      ∃ p : SessionRecord, records[k]? = some p ∧ r.binding = p.binding ∧
        (p.isClosed → r.isClosed) ∧ r.isConsistent highWater' version') :
    SoundRecords highWater' version' records' := by
  constructor
  case filed =>
    intro k r hr
    obtain ⟨p, hp, hb, -⟩ := himage k r hr
    rw [hb]
    exact h.filed k p hp
  case valid =>
    intro k r hr
    obtain ⟨p, hp, hb, -⟩ := himage k r hr
    rw [hb]
    exact h.valid k p hp
  case consistent =>
    intro k r hr
    obtain ⟨p, -, -, -, hconsistent⟩ := himage k r hr
    exact hconsistent
  case apart =>
    intro k r k' r' hr hr' hne
    obtain ⟨p, hp, hb, hc, -⟩ := himage k r hr
    obtain ⟨p', hp', hb', hc', -⟩ := himage k' r' hr'
    exact clashes_of_image hb hb' hc hc' (h.apart k p k' p' hp hp' hne)

/-- Records taken up one by one are sound together. -/
theorem sound_of_foldlM {values : List Value} (hsound : SoundRecords highWater version records)
    (h : values.foldlM (decodeRecord highWater version) records = some records') :
    SoundRecords highWater version records' ∧ records'.size ≤ records.size + values.length := by
  induction values generalizing records with
  | nil =>
    cases h
    exact ⟨hsound, le_rfl⟩
  | cons v rest ih =>
    rw [List.foldlM_cons] at h
    obtain ⟨next, hnext, h⟩ := Option.bind_eq_some_iff.mp h
    obtain ⟨r, hvalid, hconsistent, hapart, rfl⟩ := decodeRecord_spec hnext
    have hinsert := hsound.insert hvalid hconsistent fun k p hp _ => hapart k p hp
    obtain ⟨hsound', hsize⟩ := ih hinsert h
    have hle := TreeMap.size_insert_le (t := records) (k := r.binding.operationId) (v := r)
    rw [List.length_cons]
    exact ⟨hsound', by omega⟩

end Records

theorem sound_of_ofValue (h : ofValue v = some s) : ∃ version, s.Sound version := by
  obtain ⟨-, h⟩ := guard_bind_eq_some.mp h
  obtain ⟨version, -, h⟩ := Option.bind_eq_some_iff.mp h
  obtain ⟨-, h⟩ := guard_bind_eq_some.mp h
  obtain ⟨highWater, -, h⟩ := Option.bind_eq_some_iff.mp h
  obtain ⟨htimely, h⟩ := guard_bind_eq_some.mp h
  obtain ⟨values, -, h⟩ := Option.bind_eq_some_iff.mp h
  obtain ⟨hlength, h⟩ := guard_bind_eq_some.mp h
  obtain ⟨decoded, hfold, h⟩ := Option.bind_eq_some_iff.mp h
  cases h
  obtain ⟨hsound, hsize⟩ := sound_of_foldlM .empty hfold
  rw [TreeMap.size_emptyc, Nat.zero_add] at hsize
  exact ⟨version, { hsound with bounded := hsize.trans hlength, timely := htimely }⟩

/-- What is read from a document is sound, at the version of the document. -/
theorem sound_of_load (h : load bytes = some s) : ∃ version, s.Sound version := by
  obtain ⟨source, -, h⟩ := Option.bind_eq_some_iff.mp h
  obtain ⟨v, -, h⟩ := Option.bind_eq_some_iff.mp h
  exact sound_of_ofValue h

/-! ### Restarting -/

@[simp] theorem demote_binding (r : SessionRecord) : r.demote.binding = r.binding := by
  rw [demote]
  split <;> rfl

@[simp] theorem demote_isClosed (r : SessionRecord) : r.demote.isClosed = r.isClosed := by
  by_cases h : r.isClosed
  · rw [demote, if_pos h]
  · rw [demote, if_neg h]
    simpa [isClosed] using h

theorem isConsistent_demote {r : SessionRecord} {highWater : ℕ}
    (h : r.isConsistent highWater version) : r.demote.isConsistent highWater 4 := by
  rw [demote]
  by_cases hclosed : r.isClosed
  · rw [if_pos hclosed]
    simpa [isConsistent, fitsState, hclosed] using h
  rw [if_neg hclosed]
  simp only [isConsistent, Bool.and_eq_true] at h ⊢
  refine ⟨h.1, ?_⟩
  -- an uncertain record needs neither a helper nor a browser
  have hstate := h.2
  simp only [fitsState, if_neg hclosed, Bool.and_eq_true] at hstate
  simp only [Bool.not_eq_true] at hclosed
  simp_all [fitsState, isClosed]

/-- With its unfinished records uncertain, a table of an older document is one of the current
version. -/
theorem Sound.demote (h : s.Sound version) :
    Sound 4 ⟨s.records.map fun _ r => demote r, s.timeHighWaterMs⟩ := by
  constructor
  case bounded =>
    rw [← TreeMap.length_toList, TreeMap.toList_map, List.length_map,
      TreeMap.length_toList]
    exact h.bounded
  case timely => exact h.timely
  apply h.toSoundRecords.image
  intro k r hr
  rw [TreeMap.getElem?_map] at hr
  obtain ⟨p, hp, rfl⟩ := Option.map_eq_some_iff.mp hr
  exact ⟨p, hp, demote_binding p, by simp, isConsistent_demote (h.consistent k p hp)⟩

end SessionSnapshot

end BlindPass.Broker
