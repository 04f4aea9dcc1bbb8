import BlindPass.Canon.Fields
import BlindPass.Canon.RoundTrip

/-!
# The size of a canonical form

Which values have a canonical form, and how many bytes it takes, can be said without writing it:
the form of an array or an object takes the bytes of its parts, its brackets, and a comma between
any two of them. A program that keeps its state in one canonical document uses this to tell ahead
whether the state can be written.
-/

namespace BlindPass.Canon

open Fleet (Value maxSafeInteger)
open Utf8 (encode IsAscii)

/-! ### What can be written -/

mutual

/-- The value can be written at this depth: it is not nested too deep, its numbers are safe and
no object repeats a key. -/
def Writable : Value → ℕ → Prop
  | .integer n, depth => depth ≤ maxDepth ∧ n.natAbs ≤ maxSafeInteger
  | .unsigned n, depth => depth ≤ maxDepth ∧ n ≤ maxSafeInteger
  | .array items, depth => depth ≤ maxDepth ∧ WritableItems items (depth + 1)
  | .object fields, depth => depth ≤ maxDepth ∧ (fields.map Prod.fst).Nodup ∧
      WritableFields fields (depth + 1)
  | .null, depth | .bool _, depth | .string _, depth => depth ≤ maxDepth

/-- All items of an array can be written. -/
def WritableItems : List Value → ℕ → Prop
  | [], _ => True
  | v :: rest, depth => Writable v depth ∧ WritableItems rest depth

/-- All fields of an object can be written. -/
def WritableFields : List (String × Value) → ℕ → Prop
  | [], _ => True
  | (_, v) :: rest, depth => Writable v depth ∧ WritableFields rest depth

end

theorem writableItems_iff {items : List Value} {depth : ℕ} :
    WritableItems items depth ↔ ∀ v ∈ items, Writable v depth := by
  induction items with
  | nil => simp [WritableItems]
  | cons v rest ih => simp [WritableItems, ih]

theorem writableFields_iff {fields : List (String × Value)} {depth : ℕ} :
    WritableFields fields depth ↔ ∀ f ∈ fields, Writable f.2 depth := by
  induction fields with
  | nil => simp [WritableFields]
  | cons f rest ih =>
    obtain ⟨key, v⟩ := f
    simp [WritableFields, ih]

/-! ### The size -/

mutual

/-- The bytes of the canonical form. -/
def formSize : Value → ℕ
  | .null => 4
  | .bool true => 4
  | .bool false => 5
  | .integer n => (if n < 0 then 1 else 0) + (Nat.toDigits 10 n.natAbs).length
  | .unsigned n => (Nat.toDigits 10 n).length
  | .string s => size (writeString s)
  | .array items => 2 + itemsSize items + (items.length - 1)
  | .object fields => 2 + fieldsSize fields + (fields.length - 1)

/-- The bytes of the items, without commas. -/
def itemsSize : List Value → ℕ
  | [] => 0
  | v :: rest => formSize v + itemsSize rest

/-- The bytes of the fields, without commas. -/
def fieldsSize : List (String × Value) → ℕ
  | [] => 0
  | (key, v) :: rest => size (writeString key) + 1 + formSize v + fieldsSize rest

end

theorem formSize_array (items : List Value) :
    formSize (.array items) = 2 + itemsSize items + (items.length - 1) := by
  rw [formSize]

theorem formSize_object (fields : List (String × Value)) :
    formSize (.object fields) = 2 + fieldsSize fields + (fields.length - 1) := by
  rw [formSize]

theorem fieldsSize_nil : fieldsSize [] = 0 := by
  rw [fieldsSize]

theorem fieldsSize_cons (key : String) (v : Value) (rest : List (String × Value)) :
    fieldsSize ((key, v) :: rest) = size (writeString key) + 1 + formSize v + fieldsSize rest := by
  rw [fieldsSize]

theorem fieldsSize_eq_sum {fields : List (String × Value)} :
    fieldsSize fields = (fields.map fun f => size (writeString f.1) + 1 + formSize f.2).sum := by
  induction fields with
  | nil => rfl
  | cons f rest ih =>
    obtain ⟨key, v⟩ := f
    rw [fieldsSize, ih, List.map_cons, List.sum_cons]

theorem size_writeInteger {n : ℤ} {t : List Char} (h : writeInteger n = .ok t) :
    size t = (if n < 0 then 1 else 0) + (Nat.toDigits 10 n.natAbs).length := by
  have hminus : ('-' : Char).utf8Size = 1 := rfl
  unfold writeInteger at h
  split at h
  · cases h
  cases h
  split
  · rw [size_cons, size_toDigits, hminus]
  · rw [size_toDigits, Nat.zero_add]

section Written

variable {depth : ℕ} {v : Value} {t : List Char}

/-- Items that can be written one by one can be written in a row. -/
theorem writeItems_size {items : List Value} {first : Bool}
    (hitems : ∀ v ∈ items, ∃ t, writeValue v depth = .ok t ∧ size t = formSize v) :
    ∃ text, writeItems first (items.map fun v => writeValue v depth) = .ok text ∧
      size text = itemsSize items + (items.length - if first then 1 else 0) := by
  have hcomma : ∀ first : Bool, size (if first then [] else [',']) = if first then 0 else 1 := by
    decide
  induction items generalizing first with
  | nil => exact ⟨[], rfl, by cases first <;> rfl⟩
  | cons v rest ih =>
    obtain ⟨t, ht, hsize⟩ := hitems v (.head _)
    obtain ⟨text, htext, hrest⟩ : ∃ text, writeItems false _ = .ok text ∧ _ :=
      ih fun w hw => hitems w (.tail v hw)
    refine ⟨(if first then [] else [',']) ++ t ++ text, ?_, ?_⟩
    · rw [List.map_cons, writeItems, ht, htext]
      rfl
    · simp only [size_append, hcomma, hsize, hrest, itemsSize, List.length_cons, Bool.false_eq_true,
        if_false]
      cases first <;> simp <;> omega

/-- What can be written is written, in this many bytes. -/
theorem writeValue_of_writable (h : Writable v depth) :
    ∃ t, writeValue v depth = .ok t ∧ size t = formSize v := by
  induction v using Value.nested generalizing depth with
  | null | string =>
    rw [Writable] at h
    exact ⟨_, by rw [writeValue, atDepth_eq_ok]; exact ⟨h, rfl⟩, rfl⟩
  | bool b =>
    rw [Writable] at h
    cases b with
    | false | true => exact ⟨_, by rw [writeValue, atDepth_eq_ok]; exact ⟨h, rfl⟩, rfl⟩
  | integer n =>
    rw [Writable] at h
    have hok : ∃ t, writeInteger n = .ok t := ⟨_, by rw [writeInteger, if_neg (not_lt.mpr h.2)]⟩
    obtain ⟨t, ht⟩ := hok
    refine ⟨t, by rw [writeValue, atDepth_eq_ok]; exact ⟨h.1, ht⟩, ?_⟩
    rw [size_writeInteger ht, formSize]
  | unsigned n =>
    rw [Writable] at h
    have hok : ∃ t, writeInteger n = .ok t :=
      ⟨_, by rw [writeInteger, if_neg (not_lt.mpr (by simpa using h.2))]⟩
    obtain ⟨t, ht⟩ := hok
    refine ⟨t, by rw [writeValue, atDepth_eq_ok]; exact ⟨h.1, ht⟩, ?_⟩
    have hnonneg : ¬ (n : ℤ) < 0 := by omega
    rw [size_writeInteger ht, if_neg hnonneg, formSize, Nat.zero_add, Int.natAbs_natCast]
  | array items ih =>
    rw [Writable, writableItems_iff] at h
    obtain ⟨text, htext, hsize⟩ : ∃ text, writeItems true _ = .ok text ∧ _ :=
      writeItems_size fun v hv => ih v hv (h.2 v hv)
    refine ⟨'[' :: text ++ [']'], ?_, ?_⟩
    · rw [writeValue, atDepth_eq_ok, writeAll_eq_map, htext]
      exact ⟨h.1, rfl⟩
    have hopen : ('[' : Char).utf8Size = 1 := rfl
    have hclose : (']' : Char).utf8Size = 1 := rfl
    simp only [List.cons_append, size_cons, size_append, size_nil, hopen, hclose, hsize, formSize,
      if_true]
    omega
  | object fields ih =>
    rw [Writable, writableFields_iff] at h
    obtain ⟨t, ht, hsize⟩ := writeValue_object h.1 h.2.1 fun f hf =>
      (ih f hf (h.2.2 f hf)).imp fun _ ht => ht.1
    have hcost : fields.map (cost (depth + 1)) =
        fields.map fun f => size (writeString f.1) + 1 + formSize f.2 := by
      apply List.map_congr_left
      intro f hf
      obtain ⟨t, ht, hlength⟩ := ih f hf (h.2.2 f hf)
      rw [cost, ht]
      exact congrArg _ hlength
    refine ⟨t, ht, ?_⟩
    rw [hsize, hcost, formSize_object, fieldsSize_eq_sum]

theorem writable_of_writeItems {items : List Value} {first : Bool}
    (h : writeItems first (items.map fun v => writeValue v depth) = .ok t) :
    ∀ v ∈ items, ∃ text, writeValue v depth = .ok text := by
  induction items generalizing first t with
  | nil => exact fun v hv => absurd hv List.not_mem_nil
  | cons w rest ih =>
    rw [List.map_cons, writeItems] at h
    obtain ⟨text, htext, h⟩ := Transaction.bind_eq_ok.mp h
    obtain ⟨more, hmore, -⟩ := Transaction.bind_eq_ok.mp h
    intro v hv
    rcases List.mem_cons.mp hv with rfl | hv
    · exact ⟨text, htext⟩
    · exact ih hmore v hv

theorem writable_of_writeValue (h : writeValue v depth = .ok t) : Writable v depth := by
  induction v using Value.nested generalizing depth t with
  | null | string =>
    rw [writeValue, atDepth_eq_ok] at h
    rw [Writable]
    exact h.1
  | bool b =>
    rw [Writable]
    cases b <;> exact (atDepth_eq_ok.mp (by rwa [writeValue] at h)).1
  | integer =>
    rw [writeValue, atDepth_eq_ok, writeInteger] at h
    rw [Writable]
    refine ⟨h.1, not_lt.mp fun hlarge => ?_⟩
    rw [if_pos hlarge] at h
    cases h.2
  | unsigned =>
    rw [writeValue, atDepth_eq_ok, writeInteger] at h
    rw [Writable]
    refine ⟨h.1, not_lt.mp fun hlarge => ?_⟩
    rw [if_pos (by simpa using hlarge)] at h
    cases h.2
  | array items ih =>
    rw [writeValue, atDepth_eq_ok, writeAll_eq_map] at h
    obtain ⟨text, htext, -⟩ := Transaction.map_eq_ok.mp h.2
    rw [Writable, writableItems_iff]
    refine ⟨h.1, fun v hv => ?_⟩
    obtain ⟨t', ht'⟩ := writable_of_writeItems htext v hv
    exact ih v hv ht'
  | object fields ih =>
    have hdistinct : (Value.object fields).Distinct := distinct_of_writeValue h
    rw [Writable, writableFields_iff]
    refine ⟨?_, hdistinct, fun f hf => ?_⟩
    · rw [writeValue, atDepth_eq_ok] at h
      exact h.1
    · obtain ⟨t', ht'⟩ := written_of_mem h hf
      exact ih f hf ht'

theorem writeValue_eq_ok_iff : (∃ t, writeValue v depth = .ok t) ↔ Writable v depth := by
  constructor
  · rintro ⟨t, ht⟩
    exact writable_of_writeValue ht
  · intro h
    exact (writeValue_of_writable h).imp fun t ht => ht.1

theorem size_of_writeValue (h : writeValue v depth = .ok t) : size t = formSize v := by
  obtain ⟨t', ht', hsize⟩ := writeValue_of_writable (writable_of_writeValue h)
  rw [h] at ht'
  rw [Except.ok.inj ht', hsize]

theorem Writable.distinct (h : Writable v depth) : v.Distinct := by
  obtain ⟨t, ht⟩ := writeValue_eq_ok_iff.mpr h
  exact distinct_of_writeValue ht

/-- What stands in a writable value is writable itself. -/
theorem Writable.get {name : String} {x : Value} (h : Writable v depth)
    (hx : v.get name = some x) : Writable x (depth + 1) := by
  cases v with
  | object =>
    have hmem := (Value.get_eq_some h.distinct).mp hx
    rw [Writable] at h
    exact writableFields_iff.mp h.2.2 _ hmem
  | _ => cases hx

theorem depth_le_of_writable (h : Writable v depth) : depth + v.depth ≤ maxDepth := by
  induction v using Value.nested generalizing depth with
  | null | bool b | string s =>
    rw [Writable] at h
    exact h
  | integer n | unsigned n =>
    rw [Writable] at h
    exact h.1
  | array items ih =>
    rw [Writable, writableItems_iff] at h
    have hle : Value.depthItems items ≤ maxDepth - depth := by
      apply depthItems_le
      intro v hv
      have hv := ih v hv (h.2 v hv)
      omega
    rw [Value.depth]
    omega
  | object fields ih =>
    rw [Writable, writableFields_iff] at h
    have hle : Value.depthFields fields ≤ maxDepth - depth := by
      apply depthFields_le
      intro f hf
      have hf := ih f hf (h.2.2 f hf)
      omega
    rw [Value.depth]
    omega

end Written

/-! ### Texts and numbers -/

/-- A character that stands for itself and takes one byte. -/
def IsPlain (c : Char) : Prop := ' ' ≤ c ∧ c ≠ '"' ∧ c ≠ '\\' ∧ IsAscii c

instance : DecidablePred IsPlain := fun c =>
  inferInstanceAs (Decidable (' ' ≤ c ∧ c ≠ '"' ∧ c ≠ '\\' ∧ IsAscii c))

theorem isPlain_of_isAlphanum {c : Char} (h : c.isAlphanum) : IsPlain c := by
  have hrange : 48 ≤ c.toNat ∧ c.toNat ≤ 122 ∧ c.toNat ≠ 92 := by
    simp only [Char.isAlphanum, Char.isAlpha, Char.isUpper, Char.isLower, Char.isDigit,
      Bool.or_eq_true, Bool.and_eq_true, decide_eq_true_eq, ge_iff_le, UInt32.le_iff_toNat_le] at h
    have hval : c.toNat = c.val.toNat := rfl
    simp at h
    omega
  refine ⟨le_iff_toNat_le.mpr ?_, ?_, ?_, hrange.2.1.trans_lt (by decide)⟩
  · exact le_trans (by decide) hrange.1
  · rintro rfl
    exact absurd hrange.1 (by decide)
  · rintro rfl
    exact hrange.2.2 rfl

theorem size_escapeChar_of_isPlain {c : Char} (h : IsPlain c) : size (escapeChar c) = 1 := by
  rw [escapeChar_plain h.1 h.2.1 h.2.2.1]
  exact size_of_isAscii fun c' hc' => List.mem_singleton.mp hc' ▸ h.2.2.2

theorem size_writeString_eq (s : String) :
    size (writeString s) = size (s.toList.flatMap escapeChar) + 2 := by
  have hquote : ('"' : Char).utf8Size = 1 := rfl
  simp only [writeString, List.cons_append, size_cons, size_append, size_nil, hquote]
  omega

/-- A text whose characters each take at most `n` bytes. -/
theorem formSize_string_le {s : String} {n : ℕ} (h : ∀ c ∈ s.toList, size (escapeChar c) ≤ n) :
    formSize (.string s) ≤ n * s.utf8ByteSize + 2 := by
  have hchars : ∀ chars : List Char, (∀ c ∈ chars, size (escapeChar c) ≤ n) →
      size (chars.flatMap escapeChar) ≤ n * chars.length := by
    intro chars hchars
    induction chars with
    | nil => exact le_rfl
    | cons c rest ih =>
      have hrest := ih fun c' hc' => hchars c' (.tail _ hc')
      have hc := hchars c (.head _)
      rw [List.flatMap_cons, size_append, List.length_cons, Nat.mul_succ]
      omega
  rw [formSize, size_writeString_eq, Utf8.utf8ByteSize_eq]
  exact Nat.add_le_add_right
    ((hchars _ h).trans (Nat.mul_le_mul_left n Utf8.length_le_length_encode)) 2

/-- A text of plain characters is written in quotes. -/
theorem formSize_string_le_of_isPlain {s : String} (h : ∀ c ∈ s.toList, IsPlain c) :
    formSize (.string s) ≤ s.utf8ByteSize + 2 := by
  have hle := formSize_string_le fun c hc => (size_escapeChar_of_isPlain (h c hc)).le
  rwa [Nat.one_mul] at hle

theorem utf8Size_le_size_escapeChar (c : Char) : c.utf8Size ≤ size (escapeChar c) := by
  have hchar := c.utf8Size_le_four
  unfold escapeChar
  split
  case h_8 =>
    split
    · have hhex : ∀ n < 16, (hexChar n).utf8Size = 1 := by decide
      have hslash : ('\\' : Char).utf8Size = 1 := rfl
      have hu : ('u' : Char).utf8Size = 1 := rfl
      simp only [size_cons, hhex _ (Nat.mod_lt _ (by decide)), size_nil, hslash, hu]
      omega
    · simp only [size_cons, size_nil]
      omega
  all_goals decide

/-- No character is written in fewer bytes than it takes. -/
theorem le_formSize_string (s : String) : s.utf8ByteSize + 2 ≤ formSize (.string s) := by
  have hchars : ∀ chars : List Char, size chars ≤ size (chars.flatMap escapeChar) := by
    intro chars
    induction chars with
    | nil => exact le_rfl
    | cons c rest ih =>
      rw [List.flatMap_cons, size_append, size_cons]
      exact Nat.add_le_add (utf8Size_le_size_escapeChar c) ih
  rw [formSize, size_writeString_eq, Utf8.utf8ByteSize_eq]
  exact Nat.add_le_add_right (hchars s.toList) 2

theorem formSize_unsigned_le {n k : ℕ} (hk : 0 < k) (h : n < 10 ^ k) :
    formSize (.unsigned n) ≤ k := by
  rw [formSize]
  exact (Nat.length_toDigits_le_iff (by decide) hk).mpr h

/-! ### Documents -/

theorem canonicalizeValue_of_writable {v : Value} (h : Writable v 0) :
    ∃ text, writeValue v 0 = .ok text ∧ (encode text).length = formSize v ∧
      canonicalizeValue v =
        if maxCanonicalJsonBytes < formSize v then .error .tooLarge else .ok (encode text) := by
  obtain ⟨text, htext, hsize⟩ := writeValue_of_writable h
  refine ⟨text, htext, hsize, ?_⟩
  rw [← hsize]
  simp only [canonicalizeValue, htext]
  rfl

theorem length_of_canonicalizeValue {v : Value} {bytes : List UInt8}
    (h : canonicalizeValue v = .ok bytes) : bytes.length = formSize v := by
  obtain ⟨t, ht, rfl, -⟩ := canonicalizeValue_eq_ok.mp h
  exact size_of_writeValue ht

/-- The encoder writes exactly the writable values whose form is short enough, and the length of
the form can be told from the value. -/
theorem canonicalizeValue_length_iff (v : Value) (n : ℕ) :
    (∃ bytes, canonicalizeValue v = .ok bytes ∧ bytes.length = n) ↔
      Writable v 0 ∧ formSize v = n ∧ n ≤ maxCanonicalJsonBytes := by
  constructor
  · rintro ⟨bytes, hbytes, rfl⟩
    obtain ⟨t, ht, rfl, hle⟩ := canonicalizeValue_eq_ok.mp hbytes
    exact ⟨writable_of_writeValue ht, (size_of_writeValue ht).symm, hle⟩
  · rintro ⟨hwritable, rfl, hle⟩
    obtain ⟨text, -, hlength, hform⟩ := canonicalizeValue_of_writable hwritable
    exact ⟨_, by rw [hform, if_neg (not_lt.mpr hle)], hlength⟩

/-- A canonical form of not too many values is read back, also before blanks. -/
theorem parseJson_of_canonicalizeValue_append {v : Value} {bytes : List UInt8} {after : List Char}
    (h : canonicalizeValue v = .ok bytes) (hcount : v.count ≤ maxValues) (hafter : IsBlank after)
    (hsize : (bytes ++ encode after).length ≤ maxCanonicalJsonBytes) :
    ∃ form : String, bytes ++ encode after = encode form.toList ∧ parseJson form = .ok (norm v) := by
  obtain ⟨t, ht, rfl, -⟩ := canonicalizeValue_eq_ok.mp h
  have hform : (String.ofList (t ++ after)).toList = t ++ after := String.toList_ofList
  have hbytes : encode t ++ encode after = encode (t ++ after) := List.flatMap_append.symm
  refine ⟨String.ofList (t ++ after), by rw [hform, hbytes], ?_⟩
  have hdepth : v.depth ≤ maxDepth := by
    have hle := depth_le_of_writable (writable_of_writeValue ht)
    rwa [Nat.zero_add] at hle
  refine parseJson_of_denotes (by rwa [hform, ← hbytes]) ?_ ((depth_norm_le v).trans hdepth)
    (by rwa [count_norm])
  rw [hform]
  exact Denotes.mk isBlank_nil (valueText_writeValue ht) hafter

theorem parseJson_of_canonicalizeValue {v : Value} {bytes : List UInt8}
    (h : canonicalizeValue v = .ok bytes) (hcount : v.count ≤ maxValues) :
    ∃ form : String, bytes = encode form.toList ∧ parseJson form = .ok (norm v) := by
  obtain ⟨t, -, rfl, hsize⟩ := canonicalizeValue_eq_ok.mp h
  have hread := parseJson_of_canonicalizeValue_append h hcount isBlank_nil (by simpa using hsize)
  simpa using hread

/-! ### Lines -/

theorem newline_notMem_writeString (s : String) : '\n' ∉ writeString s := by
  have hescape : ∀ c : Char, '\n' ∉ escapeChar c := by
    intro c
    unfold escapeChar
    split
    case h_8 =>
      have hhex : ∀ n < 16, '\n' ≠ hexChar n := by decide
      split
      · simp [hhex _ (Nat.mod_lt _ (by decide : 0 < 16))]
      · next hlarge =>
        rw [List.mem_singleton]
        rintro rfl
        exact hlarge (by decide)
    all_goals decide
  simp [writeString, hescape]

theorem newline_notMem_toDigits (n : ℕ) : '\n' ∉ Nat.toDigits 10 n := fun hmem =>
  absurd (Nat.isDigit_of_mem_toDigits (by decide) (by decide) hmem) (by decide)

theorem newline_notMem_writeInteger {n : ℤ} (h : writeInteger n = .ok t) : '\n' ∉ t := by
  unfold writeInteger at h
  split at h
  · cases h
  · rw [← Except.ok.inj h]
    split
    · simp [newline_notMem_toDigits]
    · exact newline_notMem_toDigits _

theorem newline_notMem_writeItems {items : List (Except CanonicalError (List Char))} {first : Bool}
    (hitems : ∀ t, .ok t ∈ items → '\n' ∉ t) (h : writeItems first items = .ok t) : '\n' ∉ t := by
  induction items generalizing first t with
  | nil =>
    cases h
    exact List.not_mem_nil
  | cons item rest ih =>
    obtain ⟨text, htext, h⟩ := Transaction.bind_eq_ok.mp h
    obtain ⟨more, hmore, h⟩ := Transaction.bind_eq_ok.mp h
    cases h
    have hfirst := hitems text (htext ▸ .head _)
    have hrest := ih (fun t ht => hitems t (.tail _ ht)) hmore
    cases first <;> simp [hfirst, hrest]

theorem newline_notMem_writeFields
    {fields : List (String × Except CanonicalError (List Char))} {previous : Option String}
    (hfields : ∀ key t, (key, .ok t) ∈ fields → '\n' ∉ t)
    (h : writeFields previous fields = .ok t) : '\n' ∉ t := by
  induction fields generalizing previous t with
  | nil =>
    cases h
    exact List.not_mem_nil
  | cons field rest ih =>
    obtain ⟨key, child⟩ := field
    rw [writeFields] at h
    split at h
    · cases h
    obtain ⟨text, htext, h⟩ := Transaction.bind_eq_ok.mp h
    obtain ⟨more, hmore, h⟩ := Transaction.bind_eq_ok.mp h
    cases h
    have hfirst := hfields key text (htext ▸ .head _)
    have hrest := ih (fun key t ht => hfields key t (.tail _ ht)) hmore
    cases previous <;> simp [newline_notMem_writeString, hfirst, hrest]

/-- What is written is one line. -/
theorem newline_notMem_writeValue (h : writeValue v depth = .ok t) : '\n' ∉ t := by
  induction v using Value.nested generalizing depth t with
  | null =>
    rw [writeValue, atDepth_eq_ok] at h
    rw [← Except.ok.inj h.2]
    decide
  | bool b =>
    cases b
    all_goals
      rw [writeValue, atDepth_eq_ok] at h
      rw [← Except.ok.inj h.2]
      decide
  | integer | unsigned =>
    rw [writeValue, atDepth_eq_ok] at h
    exact newline_notMem_writeInteger h.2
  | string s =>
    rw [writeValue, atDepth_eq_ok] at h
    rw [← Except.ok.inj h.2]
    exact newline_notMem_writeString s
  | array items ih =>
    rw [writeValue, atDepth_eq_ok, writeAll_eq_map] at h
    obtain ⟨text, htext, rfl⟩ := Transaction.map_eq_ok.mp h.2
    have hnone := newline_notMem_writeItems (fun t ht => by
      obtain ⟨item, hitem, hwritten⟩ := List.mem_map.mp ht
      exact ih item hitem hwritten) htext
    simp [hnone]
  | object fields ih =>
    rw [writeValue, atDepth_eq_ok, writeEach_eq_map] at h
    obtain ⟨text, htext, rfl⟩ := Transaction.map_eq_ok.mp h.2
    have hnone := newline_notMem_writeFields (fun key t ht => by
      obtain ⟨field, hfield, hwritten⟩ := List.mem_map.mp ((List.mem_insertionSort _).mp ht)
      exact ih field hfield (congrArg Prod.snd hwritten)) htext
    simp [hnone]

theorem newline_notMem_canonicalizeValue {bytes : List UInt8}
    (h : canonicalizeValue v = .ok bytes) : 10 ∉ bytes := by
  obtain ⟨t, ht, rfl, -⟩ := canonicalizeValue_eq_ok.mp h
  exact Utf8.newline_notMem_encode (newline_notMem_writeValue ht)

/-! ### Reading back -/

theorem Same.count_eq {v w : Value} (h : Same v w) : v.count = w.count := by
  induction h with
  | refl | number => rfl
  | symm _ ih => exact ih.symm
  | trans _ _ ih ih' => exact ih.trans ih'
  | item _ ih => simp [Value.count, countItems_eq_sum, ih]
  | field _ ih => simp [Value.count, countFields_eq_sum, ih]
  | reorder hperm =>
    rw [Value.count, Value.count, countFields_eq_sum, countFields_eq_sum, (hperm.map _).sum_eq]

/-- The encoder does not count: what it writes is read back if and only if the parser does not
find too many values in it. -/
theorem readBack_iff {v : Value} {bytes : List UInt8} (h : canonicalizeValue v = .ok bytes) :
    (∃ (form : String) (w : Value), bytes = encode form.toList ∧ parseJson form = .ok w ∧
      Same v w) ↔ v.count ≤ maxValues := by
  constructor
  · rintro ⟨form, w, -, hparse, hsame⟩
    rw [hsame.count_eq]
    exact (denotes_of_parseJson hparse).2.2.2
  · intro hcount
    obtain ⟨form, hform, hparse⟩ := parseJson_of_canonicalizeValue h hcount
    exact ⟨form, norm v, hform, hparse, same_norm v⟩

theorem readBack_iff_object : ∃ (form : String) (w : Value),
    encode "\x7b\"a\":\"é\",\"b\":[null,-2]\x7d".toList = encode form.toList ∧ parseJson form = .ok w ∧
      Same (.object [("b", .array [.null, .integer (-2)]), ("a", .string "é")]) w :=
  (readBack_iff (by decide +kernel)).mpr (by decide)

theorem replicate_null (n : ℕ) : itemsSize (List.replicate n .null) = 4 * n ∧
    Value.countItems (List.replicate n .null) = n := by
  induction n with
  | zero => exact ⟨rfl, rfl⟩
  | succ n ih =>
    have hcount : Value.null.count = 1 := rfl
    rw [List.replicate_succ, itemsSize, Value.countItems, formSize, hcount, ih.1, ih.2]
    omega

/-- An array of 100000 nulls is written, and no value is read from what was written. -/
theorem nulls_unread : ∃ form : String,
    canonicalizeValue (.array (List.replicate 100000 .null)) = .ok (encode form.toList) ∧
      ∀ w, parseJson form = .ok w → ¬ Same (.array (List.replicate 100000 .null)) w := by
  have hwritable : Writable (.array (List.replicate 100000 .null)) 0 := by
    refine ⟨by decide, writableItems_iff.mpr fun v hv => ?_⟩
    rw [List.eq_of_mem_replicate hv, Writable]
    decide
  obtain ⟨t, -, -, h⟩ := canonicalizeValue_of_writable hwritable
  rw [formSize_array, (replicate_null _).1, List.length_replicate, if_neg (by decide)] at h
  refine ⟨.ofList t, by rw [h, String.toList_ofList], fun w hparse hsame => ?_⟩
  have hcount := (denotes_of_parseJson hparse).2.2.2
  rw [← hsame.count_eq, Value.count, (replicate_null _).2] at hcount
  exact absurd hcount (by decide)

end BlindPass.Canon
