import BlindPass.Canon.Writer

/-!
# Canonical forms of parsed documents

Whatever the parser accepts can be written, in no more bytes than it was read from, and the form
is read back as the same value. So writing what was read is a normalization of documents.
-/

namespace BlindPass.Canon

open Fleet (Value)
open Utf8 (encode IsAscii)

/-- The size of a text on the wire. -/
def size (text : List Char) : ℕ := (encode text).length

@[simp] theorem size_nil : size [] = 0 := rfl

variable {text ds : List Char} {c : Char} {items : List Value} {fields : List (String × Value)}

@[simp] theorem size_append {text' : List Char} :
    size (text ++ text') = size text + size text' := by
  simp [size]

@[simp] theorem size_cons : size (c :: text) = c.utf8Size + size text := by
  simp [size, Utf8.encode_cons]

theorem size_of_isAscii (h : ∀ c ∈ text, IsAscii c) : size text = text.length :=
  Utf8.length_encode_of_isAscii h

/-! ### Numbers -/

theorem ofDigitChars_lt (h : ∀ c ∈ ds, c.isDigit = true) :
    Nat.ofDigitChars 10 ds 0 < 10 ^ ds.length := by
  induction ds using List.reverseRecOn with
  | nil => decide
  | append_singleton ds d ih =>
    have hd : d.toNat ≤ 57 := by
      have hdigit := h d (by simp)
      simp only [Char.isDigit, Bool.and_eq_true, decide_eq_true_eq] at hdigit
      exact UInt32.le_iff_toNat_le.mp hdigit.2
    have hrest := ih fun c hc => h c (List.mem_append_left _ hc)
    rw [Nat.ofDigitChars_append, Nat.ofDigitChars_cons, Nat.ofDigitChars_nil, List.length_append,
      List.length_singleton, Nat.pow_succ]
    have hzero : '0'.toNat = 48 := rfl
    omega

theorem IntText.length_pos (h : IntText ds) : 0 < ds.length := by
  cases h <;> simp

theorem length_toDigits_le (h : IntText ds) :
    (Nat.toDigits 10 (Nat.ofDigitChars 10 ds 0)).length ≤ ds.length :=
  (Nat.length_toDigits_le_iff (by decide) h.length_pos).mpr (ofDigitChars_lt h.isDigit)

theorem size_toDigits (n : ℕ) : size (Nat.toDigits 10 n) = (Nat.toDigits 10 n).length :=
  size_of_isAscii fun c hc =>
    Parser.isAscii_of_isDigit (Nat.isDigit_of_mem_toDigits (by decide) (by decide) hc)

section Written

variable {depth : ℕ}

/-- The value is written in this many bytes at most. -/
def Fits (depth bound : ℕ) (v : Value) : Prop := ∃ t, writeValue v depth = .ok t ∧ size t ≤ bound

variable {v : Value} {body : List Char}

/-- A number is written in no more bytes than it was read from. -/
theorem fits_number {num : List Char} (h : NumberText num v) (hdepth : depth ≤ maxDepth) :
    Fits depth (size num) v := by
  have hsize : ∀ {ds : List Char}, IntText ds →
      size (Nat.toDigits 10 (Nat.ofDigitChars 10 ds 0)) ≤ size ds := by
    intro ds hds
    rw [size_toDigits, size_of_isAscii fun c hc => Parser.isAscii_of_isDigit (hds.isDigit c hc)]
    exact length_toDigits_le hds
  cases h with
  | unsigned hds hsafe =>
    refine ⟨Nat.toDigits 10 (Nat.ofDigitChars 10 num 0), ?_, hsize hds⟩
    rw [writeValue, atDepth_eq_ok]
    refine ⟨hdepth, ?_⟩
    have hnonneg : ¬ ((Nat.ofDigitChars 10 num 0 : ℕ) : ℤ) < 0 := by omega
    simp [writeInteger, not_lt.mpr hsafe, hnonneg]
  | @negative ds hds hsafe =>
    rcases Nat.eq_zero_or_pos (Nat.ofDigitChars 10 ds 0) with hzero | hpos
    · -- `-0` is written without its sign
      refine ⟨['0'], ?_, ?_⟩
      · rw [writeValue, atDepth_eq_ok, hzero]
        exact ⟨hdepth, by decide⟩
      · have hsign : size ('-' :: ds) = 1 + size ds := size_cons
        have hdigit : size ['0'] = 1 := rfl
        omega
    · refine ⟨'-' :: Nat.toDigits 10 (Nat.ofDigitChars 10 ds 0), ?_, ?_⟩
      · rw [writeValue, atDepth_eq_ok]
        refine ⟨hdepth, ?_⟩
        simp [writeInteger, not_lt.mpr hsafe, hpos]
      · rw [size_cons, size_cons]
        exact Nat.add_le_add_left (hsize hds) _

/-! ### Strings -/

theorem size_escapeChar_le (c : Char) : size (escapeChar c) ≤ 6 := by
  have hchar := c.utf8Size_le_four
  unfold escapeChar
  split
  case h_8 =>
    split
    · next hcontrol =>
      have hlt : c.toNat < 32 := Nat.lt_succ_of_le (le_iff_toNat_le.mp hcontrol)
      have hhex : ∀ n < 16, (hexChar n).utf8Size = 1 := by decide
      simp only [size_cons, hhex _ (Nat.mod_lt _ (by decide)), size_nil]
      decide
    · simp only [size_cons, size_nil]
      omega
  all_goals decide

theorem escapeChar_plain (hc : ' ' ≤ c) (hquote : c ≠ '"') (hslash : c ≠ '\\') :
    escapeChar c = [c] := by
  have hle := le_iff_toNat_le.mp hc
  unfold escapeChar
  split
  case h_1 => exact absurd rfl hquote
  case h_2 => exact absurd rfl hslash
  case h_8 =>
    rw [if_neg]
    intro hcontrol
    have hlt := le_iff_toNat_le.mp hcontrol
    exact absurd (hle.trans hlt) (by decide)
  all_goals exact absurd hle (by decide)

/-- A character is written in no more bytes than any of its forms. -/
theorem size_escapeChar (h : CharText body c) : size (escapeChar c) ≤ size body := by
  have hquad : ∀ {quad : List Char} {n : ℕ}, HexQuad quad n → 4 ≤ size quad := by
    intro quad n hq
    have hlength : quad.length = 4 := by
      cases hq
      rfl
    have hle : quad.length ≤ (encode quad).length := Utf8.length_le_length_encode
    rw [size]
    omega
  have hslash : ('\\' : Char).utf8Size = 1 := rfl
  have hu : ('u' : Char).utf8Size = 1 := rfl
  cases h with
  | plain hc hquote hne => rw [escapeChar_plain hc hquote hne]
  | escape hmem =>
    simp only [escapes, List.mem_cons, Prod.mk.injEq, List.not_mem_nil, or_false] at hmem
    rcases hmem with ⟨rfl, rfl⟩ | ⟨rfl, rfl⟩ | ⟨rfl, rfl⟩ | ⟨rfl, rfl⟩ | ⟨rfl, rfl⟩ | ⟨rfl, rfl⟩ |
      ⟨rfl, rfl⟩ | ⟨rfl, rfl⟩ <;> decide
  | unicode hq =>
    have := hquad hq
    refine (size_escapeChar_le _).trans ?_
    simp only [size_cons, hslash, hu]
    omega
  | surrogates hq =>
    have := hquad hq
    refine (size_escapeChar_le _).trans ?_
    simp only [size_append, size_cons, hslash, hu]
    omega

theorem size_writeString {name : List Char} {s : String} (h : StringText name s) :
    size (writeString s) ≤ size name := by
  have hchars : ∀ {body chars : List Char}, CharsText body chars →
      size (chars.flatMap escapeChar) ≤ size body := by
    intro body chars h
    induction h with
    | nil => exact le_rfl
    | cons hchar _ ih =>
      rw [List.flatMap_cons, size_append, size_append]
      exact Nat.add_le_add (size_escapeChar hchar) ih
  cases h with
  | mk hbody =>
    simp only [writeString, List.cons_append, size_cons, size_append]
    have := hchars hbody
    omega

/-! ### Arrays and objects -/

theorem depth_lt_depthItems (h : v ∈ items) : v.depth < Value.depthItems items := by
  induction items with
  | nil => exact absurd h List.not_mem_nil
  | cons w rest ih =>
    rw [Value.depthItems]
    rcases List.mem_cons.mp h with rfl | h
    · exact (Nat.lt_succ_self _).trans_le (le_max_left _ _)
    · exact (ih h).trans_le (le_max_right _ _)

theorem depth_lt_depthFields {f : String × Value} (h : f ∈ fields) :
    f.2.depth < Value.depthFields fields := by
  induction fields with
  | nil => exact absurd h List.not_mem_nil
  | cons g rest ih =>
    obtain ⟨key, w⟩ := g
    rw [Value.depthFields]
    rcases List.mem_cons.mp h with rfl | h
    · exact (Nat.lt_succ_self _).trans_le (le_max_left _ _)
    · exact (ih h).trans_le (le_max_right _ _)

/-- Items are written in no more bytes than they were read from. -/
theorem writeItems_fits {first : Bool} (h : ItemsText body items)
    (hitems : ∀ v ∈ items, ∀ t, ValueText t v → Fits depth (size t) v) :
    ∃ text, writeItems first (items.map fun v => writeValue v depth) = .ok text ∧
      size text ≤ size body + if first then 0 else 1 := by
  have hcomma : ∀ first : Bool, size (if first then [] else [',']) = if first then 0 else 1 := by
    decide
  induction items generalizing body first with
  | nil => cases h
  | cons v rest ih =>
    cases h with
    | one hbefore hbody =>
      obtain ⟨t, ht, hsize⟩ := hitems v (.head _) _ hbody
      refine ⟨(if first then [] else [',']) ++ t ++ [], ?_, ?_⟩
      · simp only [List.map_cons, List.map_nil, writeItems, ht]
        rfl
      · simp only [size_append, size_nil, hcomma]
        omega
    | @more before body after v more items hbefore hbody hafter hmore =>
      obtain ⟨t, ht, hsize⟩ := hitems v (.head _) _ hbody
      obtain ⟨text, htext, hrest⟩ : ∃ text, writeItems false _ = .ok text ∧ _ :=
        ih hmore fun w hw => hitems w (.tail v hw)
      refine ⟨(if first then [] else [',']) ++ t ++ text, ?_, ?_⟩
      · rw [List.map_cons, writeItems, ht, htext]
        rfl
      · have hone : (',' : Char).utf8Size = 1 := rfl
        simp only [size_append, size_cons, hcomma, hone, Bool.false_eq_true, if_false] at hrest ⊢
        omega

/-- The bytes a field takes without its comma. -/
def cost (depth : ℕ) (f : String × Value) : ℕ :=
  size (writeString f.1) + 1 + size ((writeValue f.2 depth).toOption.getD [])

/-- Fields with distinct keys that can be written one by one can be written in a row. -/
theorem writeFields_cost {previous : Option String}
    (hfields : ∀ f ∈ fields, ∃ t, writeValue f.2 depth = .ok t)
    (hnodup : (fields.map Prod.fst).Nodup)
    (hprevious : ∀ key, previous = some key → key ∉ fields.map Prod.fst) :
    ∃ text, writeFields previous (fields.map fun f => (f.1, writeValue f.2 depth)) = .ok text ∧
      size text + (if previous.isSome || fields.isEmpty then 0 else 1) =
        (fields.map (cost depth)).sum + fields.length := by
  induction fields generalizing previous with
  | nil => exact ⟨[], rfl, by simp⟩
  | cons f rest ih =>
    obtain ⟨t, ht⟩ := hfields f (.head _)
    rw [List.map_cons, List.nodup_cons] at hnodup
    obtain ⟨text, htext, hsize⟩ : ∃ text, writeFields (some f.1) _ = .ok text ∧ _ :=
      ih (fun g hg => hfields g (.tail f hg)) hnodup.2
        fun key hkey => Option.some.inj hkey ▸ hnodup.1
    have hne : ¬ previous = some f.1 := fun h => hprevious f.1 h (.head _)
    refine ⟨(if previous.isSome then [','] else []) ++ (writeString f.1 ++ ':' :: t) ++ text, ?_, ?_⟩
    · rw [List.map_cons, writeFields, if_neg hne, ht, htext]
      rfl
    have hcolon : (':' : Char).utf8Size = 1 := rfl
    have hcost : cost depth f = size (writeString f.1) + 1 + size t := by
      rw [cost, ht]
      rfl
    have hcomma : size (if previous.isSome then [','] else []) =
        if previous.isSome then 1 else 0 := by
      cases previous <;> rfl
    simp only [Option.isSome_some, Bool.true_or, if_true, Nat.add_zero] at hsize
    simp only [size_append, size_cons, hcolon, hcomma, List.map_cons, List.sum_cons, hcost,
      List.length_cons, List.isEmpty_cons, Bool.or_false, hsize]
    split <;> omega

/-- An object is written in the order of its keys, which costs as much as any other. -/
theorem writeValue_object (hdepth : depth ≤ maxDepth) (hnodup : (fields.map Prod.fst).Nodup)
    (hfields : ∀ f ∈ fields, ∃ t, writeValue f.2 (depth + 1) = .ok t) :
    ∃ t, writeValue (.object fields) depth = .ok t ∧
      size t = 2 + (fields.map (cost (depth + 1))).sum + (fields.length - 1) := by
  have hperm := List.perm_insertionSort KeyLe fields
  obtain ⟨t, ht, hsize⟩ : ∃ t, writeFields none _ = .ok t ∧ _ :=
    writeFields_cost (fun f hf => hfields f (hperm.mem_iff.mp hf))
      ((hperm.map Prod.fst).nodup_iff.mpr hnodup) fun key hkey => absurd hkey (by simp)
  refine ⟨'{' :: t ++ ['}'], ?_, ?_⟩
  · rw [writeValue, atDepth_eq_ok, writeEach_sorted, ht]
    exact ⟨hdepth, rfl⟩
  have hopen : ('{' : Char).utf8Size = 1 := rfl
  have hclose : ('}' : Char).utf8Size = 1 := rfl
  rw [(hperm.map (cost (depth + 1))).sum_eq, hperm.length_eq, hperm.isEmpty_eq] at hsize
  simp only [List.cons_append, size_cons, size_append, size_nil, hopen, hclose]
  cases fields <;> simp at hsize ⊢ <;> omega

/-- Fields take no more bytes than they were read from. -/
theorem sum_cost_le (h : FieldsText body fields)
    (hfields : ∀ f ∈ fields, ∀ t, ValueText t f.2 → Fits depth (size t) f.2) :
    (fields.map (cost depth)).sum + fields.length ≤ size body + 1 := by
  have hcolon : (':' : Char).utf8Size = 1 := rfl
  have hcomma : (',' : Char).utf8Size = 1 := rfl
  -- a field without what stands between its tokens
  have hcost : ∀ {key : String} {v : Value} {name text : List Char}, StringText name key →
      Fits depth (size text) v → cost depth (key, v) ≤ size name + 1 + size text := by
    rintro key v name text hname ⟨t, ht, hsize⟩
    have := size_writeString hname
    rw [cost, ht]
    simp only [Except.toOption, Option.getD_some]
    omega
  induction fields generalizing body with
  | nil => cases h
  | cons f rest ih =>
    cases h with
    | one _ hname _ _ hbody =>
      have hfield := hcost hname (hfields _ (.head _) _ hbody)
      dsimp only at hfield
      simp only [List.map_cons, List.map_nil, List.sum_cons, List.sum_nil, List.length_cons,
        List.length_nil, size_append, size_cons, hcolon]
      omega
    | more _ hname _ _ hbody _ hmore =>
      have hfield := hcost hname (hfields _ (.head _) _ hbody)
      dsimp only at hfield
      have := ih hmore fun g hg => hfields g (.tail _ hg)
      simp only [List.map_cons, List.sum_cons, List.length_cons, size_append, size_cons, hcolon,
        hcomma]
      omega

theorem FieldsText.exists_text (h : FieldsText body fields) :
    ∀ f ∈ fields, ∃ text, ValueText text f.2 := by
  induction fields generalizing body with
  | nil => exact fun f hf => absurd hf List.not_mem_nil
  | cons g rest ih =>
    intro f hf
    cases h with
    | one _ _ _ _ hbody =>
      rw [List.mem_singleton.mp hf]
      exact ⟨_, hbody⟩
    | more _ _ _ _ hbody _ hmore =>
      rcases List.mem_cons.mp hf with rfl | hf
      · exact ⟨_, hbody⟩
      · exact ih hmore f hf

/-- A value is written in no more bytes than it was read from. -/
theorem fits_value (h : ValueText text v) (hdepth : v.depth + depth ≤ maxDepth) :
    Fits depth (size text) v := by
  have hshallow : depth ≤ maxDepth := (Nat.le_add_left _ _).trans hdepth
  induction v using Value.nested generalizing depth text with
  | null =>
    cases h with
    | number hnum => cases hnum
    | null =>
      refine ⟨_, ?_, le_rfl⟩
      rw [writeValue, atDepth_eq_ok]
      exact ⟨hshallow, rfl⟩
  | bool =>
    cases h with
    | number hnum => cases hnum
    | true | false =>
      refine ⟨_, ?_, le_rfl⟩
      rw [writeValue, atDepth_eq_ok]
      exact ⟨hshallow, rfl⟩
  | integer | unsigned =>
    cases h with
    | number hnum => exact fits_number hnum hshallow
  | string s =>
    cases h with
    | number hnum => cases hnum
    | string hname =>
      refine ⟨writeString s, ?_, size_writeString hname⟩
      rw [writeValue, atDepth_eq_ok]
      exact ⟨hshallow, rfl⟩
  | array items ih =>
    have hitems : ∀ v ∈ items, ∀ t, ValueText t v → Fits (depth + 1) (size t) v := by
      intro v hv t ht
      have hlt := depth_lt_depthItems hv
      rw [Value.depth] at hdepth
      exact ih v hv ht (by omega) (by omega)
    cases h with
    | number hnum => cases hnum
    | emptyArray =>
      refine ⟨['[', ']'], ?_, ?_⟩
      · rw [writeValue, atDepth_eq_ok, writeAll_eq_map]
        exact ⟨hshallow, rfl⟩
      · simp only [List.cons_append, size_cons, size_append]
        omega
    | array hbody =>
      obtain ⟨t, ht, hsize⟩ : ∃ t, writeItems true _ = .ok t ∧ _ := writeItems_fits hbody hitems
      refine ⟨'[' :: t ++ [']'], ?_, ?_⟩
      · rw [writeValue, atDepth_eq_ok, writeAll_eq_map, ht]
        exact ⟨hshallow, rfl⟩
      · simp only [List.cons_append, size_cons, size_append, if_true] at hsize ⊢
        omega
  | object fields ih =>
    have hfields : ∀ f ∈ fields, ∀ t, ValueText t f.2 → Fits (depth + 1) (size t) f.2 := by
      intro f hf t ht
      have hlt := depth_lt_depthFields hf
      rw [Value.depth] at hdepth
      exact ih f hf ht (by omega) (by omega)
    cases h with
    | number hnum => cases hnum
    | emptyObject =>
      refine ⟨['{', '}'], ?_, ?_⟩
      · rw [writeValue, atDepth_eq_ok, writeEach_eq_map]
        exact ⟨hshallow, rfl⟩
      · simp only [List.cons_append, size_cons, size_append]
        omega
    | object hbody hnodup =>
      obtain ⟨t, ht, hsize⟩ := writeValue_object hshallow hnodup fun f hf => by
        obtain ⟨text, htext⟩ := hbody.exists_text f hf
        exact (hfields f hf text htext).imp fun _ h => h.1
      have hcost := sum_cost_le hbody hfields
      have hopen : ('{' : Char).utf8Size = 1 := rfl
      have hclose : ('}' : Char).utf8Size = 1 := rfl
      refine ⟨t, ht, ?_⟩
      cases fields with
      | nil => cases hbody
      | cons =>
        simp only [List.cons_append, size_cons, size_append, size_nil, List.length_cons, hopen,
          hclose] at hsize hcost ⊢
        omega

end Written

/-! ### The canonical value -/

theorem countItems_eq_sum : Value.countItems items = (items.map Value.count).sum := by
  induction items with
  | nil => rw [Value.countItems, List.map_nil, List.sum_nil]
  | cons v rest ih => rw [Value.countItems, ih, List.map_cons, List.sum_cons]

theorem countFields_eq_sum : Value.countFields fields = (fields.map fun f => f.2.count).sum := by
  induction fields with
  | nil => rw [Value.countFields, List.map_nil, List.sum_nil]
  | cons f rest ih =>
    obtain ⟨key, v⟩ := f
    rw [Value.countFields, ih, List.map_cons, List.sum_cons]

theorem depthItems_le {n : ℕ} (h : ∀ v ∈ items, v.depth < n) : Value.depthItems items ≤ n := by
  induction items with
  | nil => exact Nat.zero_le n
  | cons v rest ih =>
    rw [Value.depthItems]
    exact Nat.max_le.mpr ⟨h v (.head _), ih fun w hw => h w (.tail v hw)⟩

theorem depthFields_le {n : ℕ} (h : ∀ f ∈ fields, f.2.depth < n) :
    Value.depthFields fields ≤ n := by
  induction fields with
  | nil => exact Nat.zero_le n
  | cons f rest ih =>
    obtain ⟨key, v⟩ := f
    rw [Value.depthFields]
    exact Nat.max_le.mpr
      ⟨h _ (.head _), ih fun g hg => h g (.tail _ hg)⟩

theorem count_normInteger (n : ℤ) : (normInteger n).count = 1 := by
  unfold normInteger
  split <;> rfl

theorem depth_normInteger (n : ℤ) : (normInteger n).depth = 0 := by
  unfold normInteger
  split <;> rfl

theorem count_norm (v : Value) : (norm v).count = v.count := by
  induction v using Value.nested with
  | null | bool | string => rw [norm]
  | integer | unsigned => rw [norm, count_normInteger, Value.count] <;> simp
  | array items ih =>
    rw [norm, normAll_eq_map, Value.count, Value.count, countItems_eq_sum, countItems_eq_sum,
      List.map_map]
    congr 2
    exact List.map_congr_left ih
  | object fields ih =>
    rw [norm, Value.count, Value.count, countFields_eq_sum, countFields_eq_sum,
      ((List.perm_insertionSort KeyLe (normEach fields)).map _).sum_eq, normEach_eq_map, List.map_map]
    congr 2
    exact List.map_congr_left ih

theorem depth_norm_le (v : Value) : (norm v).depth ≤ v.depth := by
  induction v using Value.nested with
  | null | bool | string => rw [norm]
  | integer | unsigned => rw [norm, depth_normInteger]; exact zero_le
  | array items ih =>
    rw [norm, normAll_eq_map, Value.depth, Value.depth]
    refine depthItems_le fun w hw => ?_
    obtain ⟨v, hv, rfl⟩ := List.mem_map.mp hw
    exact (ih v hv).trans_lt (depth_lt_depthItems hv)
  | object fields ih =>
    rw [norm, Value.depth, Value.depth]
    refine depthFields_le fun g hg => ?_
    rw [List.mem_insertionSort, normEach_eq_map] at hg
    obtain ⟨f, hf, rfl⟩ := List.mem_map.mp hg
    exact (ih f hf).trans_lt (depth_lt_depthFields hf)

/-- What was parsed has a canonical form that is no longer. The form is parsed as the same value,
and is its own form. -/
theorem canonicalizeValue_parseJson {source : String} {v : Value} (h : parseJson source = .ok v) :
    ∃ form : String, canonicalizeValue v = .ok (encode form.toList) ∧
      (encode form.toList).length ≤ (encode source.toList).length ∧
      (∃ w, parseJson form = .ok w ∧ Same v w) ∧
      canonicalizeJson form = .ok (encode form.toList) := by
  obtain ⟨hsize, hdenotes, hdepth, hcount⟩ := denotes_of_parseJson h
  -- white space around the value is left out
  obtain ⟨t, ht, hle⟩ : ∃ t, writeValue v 0 = .ok t ∧ size t ≤ size source.toList := by
    generalize source.toList = text at hdenotes
    cases hdenotes with
    | mk _ hbody =>
      obtain ⟨t, ht, hle⟩ : Fits 0 _ v := fits_value hbody hdepth
      refine ⟨t, ht, ?_⟩
      simp only [size_append]
      omega
  have hform : (String.ofList t).toList = t := String.toList_ofList
  have hfits : (encode t).length ≤ maxCanonicalJsonBytes := hle.trans hsize
  have hparse : parseJson (String.ofList t) = .ok (norm v) := by
    refine parseJson_of_denotes (by rwa [hform]) ?_ ((depth_norm_le v).trans hdepth)
      (by rwa [count_norm])
    rw [hform]
    have hdenotes := Denotes.mk isBlank_nil (valueText_writeValue ht) isBlank_nil
    simpa using hdenotes
  refine ⟨String.ofList t, ?_, ?_, ⟨norm v, hparse, same_norm v⟩, ?_⟩
  · rw [hform]
    exact canonicalizeValue_eq_ok.mpr ⟨t, ht, rfl, hfits⟩
  · rw [hform]
    exact hle
  have hnorm : writeValue (norm v) 0 = .ok t := by
    have heq := (same_norm v).writeValue 0
    rw [ht] at heq
    cases hresult : writeValue (norm v) 0 with
    | error =>
      rw [hresult] at heq
      cases heq
    | ok =>
      rw [hresult] at heq
      rw [Option.some.inj heq]
  rw [canonicalizeJson, hparse, hform]
  exact canonicalizeValue_eq_ok.mpr ⟨t, hnorm, rfl, hfits⟩

theorem canonicalizeValue_parseJson_fields :
    let source := " \x7b \"b\": 1 , \"a\" : [ -0 ] \x7d"
    let v := Value.object [("b", .unsigned 1), ("a", .array [.integer 0])]
    parseJson source = .ok v ∧
      ∃ form : String, canonicalizeValue v = .ok (encode form.toList) ∧
        (encode form.toList).length ≤ (encode source.toList).length ∧
        (∃ w, parseJson form = .ok w ∧ Same v w) ∧
        canonicalizeJson form = .ok (encode form.toList) := by
  have h : parseJson " \x7b \"b\": 1 , \"a\" : [ -0 ] \x7d" =
      .ok (.object [("b", .unsigned 1), ("a", .array [.integer 0])]) := by rfl
  exact ⟨h, canonicalizeValue_parseJson h⟩

end BlindPass.Canon
