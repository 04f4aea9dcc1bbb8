import BlindPass.Canon.Recognition

/-!
# The canonical form

A value is written without white space, with one form for each number and each character, and
with the fields of an object in the order of the UTF-16 code units of their keys. So values that
differ only in the order of fields, or in the representation of a number, have one form, and a
form belongs to no other values.
-/

namespace BlindPass.Canon

open Fleet (Value maxSafeInteger)
open Utf8 (encode)
open Transaction (bind_eq_ok map_eq_ok)

/-! ### Writing -/

/-- A hexadecimal digit in lower case. -/
def hexChar (n : ℕ) : Char := n.digitChar

/-- How a character is written: `write_string`. -/
def escapeChar (c : Char) : List Char :=
  match c with
  | '"' => ['\\', '"']
  | '\\' => ['\\', '\\']
  | '\x08' => ['\\', 'b']
  | '\x09' => ['\\', 't']
  | '\x0a' => ['\\', 'n']
  | '\x0c' => ['\\', 'f']
  | '\x0d' => ['\\', 'r']
  | c =>
    if c ≤ '\x1f' then
      ['\\', 'u', hexChar (c.toNat / 4096 % 16), hexChar (c.toNat / 256 % 16),
        hexChar (c.toNat / 16 % 16), hexChar (c.toNat % 16)]
    else [c]

def writeString (value : String) : List Char :=
  '"' :: value.toList.flatMap escapeChar ++ ['"']

/-- A number within the safe range, in decimals. -/
def writeInteger (n : ℤ) : Except CanonicalError (List Char) :=
  if maxSafeInteger < n.natAbs then .error .invalidNumber
  else .ok (if n < 0 then '-' :: Nat.toDigits 10 n.natAbs else Nat.toDigits 10 n.natAbs)

/-- No value stands deeper than `MAX_DEPTH`. -/
def atDepth (depth : ℕ) (text : Except CanonicalError (List Char)) :
    Except CanonicalError (List Char) :=
  if maxDepth < depth then .error .tooDeep else text

/-- `utf16_cmp`, as an order of fields by their keys. -/
def KeyLe {α : Type} (left right : String × α) : Prop :=
  Utf16.units left.1.toList ≤ Utf16.units right.1.toList

instance {α : Type} : DecidableRel (KeyLe (α := α)) := fun left right =>
  inferInstanceAs (Decidable (Utf16.units left.1.toList ≤ Utf16.units right.1.toList))

/-- The items of an array, with a comma before each but the first. -/
def writeItems (first : Bool) :
    List (Except CanonicalError (List Char)) → Except CanonicalError (List Char)
  | [] => .ok []
  | item :: rest => do
    let text ← item
    let more ← writeItems false rest
    return (if first then [] else [',']) ++ text ++ more

/-- The fields of an object, with a comma before each but the first. A key that comes twice in a
row is an error. -/
def writeFields (previous : Option String) :
    List (String × Except CanonicalError (List Char)) → Except CanonicalError (List Char)
  | [] => .ok []
  | (key, child) :: rest =>
    if previous = some key then .error .duplicateProperty
    else do
      let text ← child
      let more ← writeFields (some key) rest
      return (if previous.isSome then [','] else []) ++ (writeString key ++ ':' :: text) ++ more

mutual

/-- Write a value that stands at the given depth. What an array or an object holds is written
first, and put into order then. -/
def writeValue : Value → ℕ → Except CanonicalError (List Char)
  | .null, depth => atDepth depth (.ok ['n', 'u', 'l', 'l'])
  | .bool false, depth => atDepth depth (.ok ['f', 'a', 'l', 's', 'e'])
  | .bool true, depth => atDepth depth (.ok ['t', 'r', 'u', 'e'])
  | .integer n, depth => atDepth depth (writeInteger n)
  | .unsigned n, depth => atDepth depth (writeInteger n)
  | .string s, depth => atDepth depth (.ok (writeString s))
  | .array items, depth => atDepth depth
    ((writeItems true (writeAll items (depth + 1))).map fun text => '[' :: text ++ [']'])
  | .object fields, depth => atDepth depth
    ((writeFields none ((writeEach fields (depth + 1)).insertionSort KeyLe)).map fun text =>
      '{' :: text ++ ['}'])

/-- The items of an array. -/
def writeAll : List Value → ℕ → List (Except CanonicalError (List Char))
  | [], _ => []
  | v :: rest, depth => writeValue v depth :: writeAll rest depth

/-- The fields of an object, in the order of the source. -/
def writeEach : List (String × Value) → ℕ → List (String × Except CanonicalError (List Char))
  | [], _ => []
  | (key, v) :: rest, depth => (key, writeValue v depth) :: writeEach rest depth

end

def canonicalizeValue (v : Value) : Except CanonicalError (List UInt8) := do
  let text ← writeValue v 0
  if maxCanonicalJsonBytes < (encode text).length then .error .tooLarge else .ok (encode text)

def canonicalizeJson (source : String) : Except CanonicalError (List UInt8) := do
  let v ← parseJson source
  canonicalizeValue v

/-! ### The order of fields -/

section Order

variable {α : Type} {fs gs : List (String × α)}

instance : Std.Total (KeyLe (α := α)) := ⟨fun _ _ => le_total _ _⟩

instance : IsTrans (String × α) KeyLe := ⟨fun _ _ _ h h' => le_trans h h'⟩

theorem eq_key_of_keyLe {a b : String × α} (h : KeyLe a b) (h' : KeyLe b a) : a.1 = b.1 :=
  String.toList_injective (Utf16.units_injective (le_antisymm h h'))

/-- Fields with distinct keys have one order. -/
theorem insertionSort_eq_of_perm (h : fs.Perm gs) (hnodup : (fs.map Prod.fst).Nodup) :
    fs.insertionSort KeyLe = gs.insertionSort KeyLe := by
  refine List.Perm.eq_of_pairwise ?_ (List.pairwise_insertionSort KeyLe fs)
    (List.pairwise_insertionSort KeyLe gs)
    ((List.perm_insertionSort KeyLe fs).trans (h.trans (List.perm_insertionSort KeyLe gs).symm))
  intro a b ha hb hle hle'
  have hmem : a ∈ fs := (List.mem_insertionSort KeyLe).mp ha
  have hmem' : b ∈ fs := h.mem_iff.mpr ((List.mem_insertionSort KeyLe).mp hb)
  exact List.inj_on_of_nodup_map hnodup hmem hmem' (eq_key_of_keyLe hle hle')

theorem map_insertionSort_snd {β : Type} (f : α → β) :
    (fs.insertionSort KeyLe).map (fun e => (e.1, f e.2)) =
      (fs.map fun e => (e.1, f e.2)).insertionSort KeyLe :=
  List.map_insertionSort KeyLe KeyLe _ _ fun _ _ _ _ => Iff.rfl

end Order

/-! ### What is written -/

theorem writeAll_eq_map {items : List Value} {depth : ℕ} :
    writeAll items depth = items.map fun v => writeValue v depth := by
  induction items with
  | nil => rw [writeAll, List.map_nil]
  | cons v rest ih => rw [writeAll, ih, List.map_cons]

theorem writeEach_eq_map {fields : List (String × Value)} {depth : ℕ} :
    writeEach fields depth = fields.map fun f => (f.1, writeValue f.2 depth) := by
  induction fields with
  | nil => rw [writeEach, List.map_nil]
  | cons f rest ih =>
    obtain ⟨key, v⟩ := f
    rw [writeEach, ih, List.map_cons]

/-- The fields of an object in the order they are written in. -/
theorem writeEach_sorted {fields : List (String × Value)} {depth : ℕ} :
    (writeEach fields depth).insertionSort KeyLe =
      (fields.insertionSort KeyLe).map fun f => (f.1, writeValue f.2 depth) := by
  rw [writeEach_eq_map, map_insertionSort_snd fun v => writeValue v depth]

theorem atDepth_eq_ok {depth : ℕ} {text : Except CanonicalError (List Char)} {t : List Char} :
    atDepth depth text = .ok t ↔ depth ≤ maxDepth ∧ text = .ok t := by
  unfold atDepth
  split
  · next h => exact ⟨fun h' => absurd h' nofun, fun h' => absurd h (not_lt.mpr h'.1)⟩
  · next h => exact ⟨fun h' => ⟨not_lt.mp h, h'⟩, fun h' => h'.2⟩

/-- Fields that were written in their order have distinct keys. -/
theorem nodup_of_writeFields {fields : List (String × Except CanonicalError (List Char))}
    {previous : Option String} {t : List Char} (h : writeFields previous fields = .ok t)
    (hsorted : fields.Pairwise KeyLe) : (fields.map Prod.fst).Nodup := by
  induction fields generalizing previous t with
  | nil => exact List.nodup_nil
  | cons f rest ih =>
    obtain ⟨key, child⟩ := f
    rw [writeFields] at h
    split at h
    · cases h
    obtain ⟨text, -, h⟩ := bind_eq_ok.mp h
    obtain ⟨more, hmore, -⟩ := bind_eq_ok.mp h
    obtain ⟨hfirst, hrest⟩ := List.pairwise_cons.mp hsorted
    rw [List.map_cons, List.nodup_cons]
    refine ⟨?_, ih hmore hrest⟩
    -- a later field with this key would stand right behind it
    cases rest with
    | nil => exact List.not_mem_nil
    | cons g =>
      obtain ⟨key', child'⟩ := g
      have hne : key ≠ key' := by
        rintro rfl
        rw [writeFields, if_pos rfl] at hmore
        cases hmore
      intro hmem
      rcases List.mem_cons.mp hmem with rfl | hmem
      · exact hne rfl
      obtain ⟨g, hg, hkey⟩ := List.mem_map.mp hmem
      have hle : KeyLe (key, child) (key', child') := hfirst _ (.head _)
      have hge : KeyLe (key', child') g := (List.pairwise_cons.mp hrest).1 g hg
      refine hne (eq_key_of_keyLe hle ?_)
      unfold KeyLe at hge ⊢
      rwa [hkey] at hge

/-! ### The text that is written -/

theorem hexDigit_hexChar {n : ℕ} (h : n < 16) : HexDigit (hexChar n) n := by
  have hall : ∀ n < 16, Parser.hexDigit? (hexChar n) = some n := by decide
  exact Parser.hexDigit?_eq_some.mp (hall n h)

/-- A character is written as one of its forms. -/
theorem charText_escapeChar (c : Char) : CharText (escapeChar c) c := by
  unfold escapeChar
  split
  case h_8 hquote hslash _ _ _ _ _ =>
    split
    · next hcontrol =>
      have hlt : c.toNat < 32 := Nat.lt_succ_of_le (le_iff_toNat_le.mp hcontrol)
      have hquad := HexQuad.mk (hexDigit_hexChar (n := c.toNat / 4096 % 16) (by omega))
        (hexDigit_hexChar (n := c.toNat / 256 % 16) (by omega))
        (hexDigit_hexChar (n := c.toNat / 16 % 16) (by omega))
        (hexDigit_hexChar (n := c.toNat % 16) (by omega))
      have hvalue : ((c.toNat / 4096 % 16 * 16 + c.toNat / 256 % 16) * 16 + c.toNat / 16 % 16) * 16 +
          c.toNat % 16 = c.toNat := by omega
      rw [hvalue] at hquad
      have hchar := CharText.unicode hquad (.inl (by omega))
      rwa [Char.ofNat_toNat] at hchar
    · next hplain =>
      refine .plain ?_ hquote hslash
      rw [le_iff_toNat_le] at hplain ⊢
      exact not_le.mp hplain
  all_goals exact .escape (by decide)

theorem stringText_writeString (s : String) : StringText (writeString s) s := by
  have hchars : ∀ chars : List Char, CharsText (chars.flatMap escapeChar) chars := by
    intro chars
    induction chars with
    | nil => exact .nil
    | cons c rest ih =>
      rw [List.flatMap_cons]
      exact .cons (charText_escapeChar c) ih
  exact .mk (hchars s.toList)

theorem intText_toDigits (n : ℕ) : IntText (Nat.toDigits 10 n) := by
  have hdigit : ∀ m < 10, (Nat.digitChar m).isDigit = true := by decide
  have hzero : ∀ m < 10, m ≠ 0 → Nat.digitChar m ≠ '0' := by decide
  induction n using Nat.strongRecOn with
  | ind n ih =>
    rw [Nat.toDigits_eq_if (by decide)]
    split
    · next hlt =>
      by_cases hn : n = 0
      · subst hn
        exact .zero
      · exact .nonzero (hdigit n hlt) (hzero n hlt hn) fun c hc => absurd hc List.not_mem_nil
    · next hge =>
      -- the last digit is put behind a number that is not zero
      have hlast : (Nat.digitChar (n % 10)).isDigit = true := hdigit _ (Nat.mod_lt _ (by decide))
      have hrest := ih (n / 10) (by omega)
      generalize hds : Nat.toDigits 10 (n / 10) = ds at hrest
      cases hrest with
      | zero =>
        have hvalue : Nat.ofDigitChars 10 (Nat.toDigits 10 (n / 10)) 0 = n / 10 :=
          Nat.ofDigitChars_toDigits (by decide) (by decide)
        rw [hds] at hvalue
        have : n / 10 = 0 := hvalue.symm
        omega
      | nonzero hd hne hrest =>
        refine .nonzero hd hne fun c hc => ?_
        rcases List.mem_append.mp hc with hc | hc
        · exact hrest c hc
        · rw [List.mem_singleton.mp hc]
          exact hlast

/-- The number as the parser represents it. -/
def normInteger (n : ℤ) : Value := if n < 0 then .integer n else .unsigned n.natAbs

theorem numberText_writeInteger {n : ℤ} {t : List Char} (h : writeInteger n = .ok t) :
    NumberText t (normInteger n) := by
  unfold writeInteger at h
  unfold normInteger
  have hvalue : Nat.ofDigitChars 10 (Nat.toDigits 10 n.natAbs) 0 = n.natAbs :=
    Nat.ofDigitChars_toDigits (by decide) (by decide)
  have hdigits := intText_toDigits n.natAbs
  split at h
  · cases h
  next hsafe =>
  rw [← Except.ok.inj h]
  have hsafe : Nat.ofDigitChars 10 (Nat.toDigits 10 n.natAbs) 0 ≤ maxSafeInteger := by
    rw [hvalue]
    exact not_lt.mp hsafe
  split
  · next hneg =>
    have hnumber := NumberText.negative hdigits hsafe
    rwa [hvalue, show (-(n.natAbs : ℤ)) = n by omega] at hnumber
  · have hnumber := NumberText.unsigned hdigits hsafe
    rwa [hvalue] at hnumber

mutual

/-- The value with its fields in order and its numbers as the parser represents them. -/
def norm : Value → Value
  | .null => .null
  | .bool b => .bool b
  | .integer n => normInteger n
  | .unsigned n => normInteger n
  | .string s => .string s
  | .array items => .array (normAll items)
  | .object fields => .object ((normEach fields).insertionSort KeyLe)

/-- The items of an array. -/
def normAll : List Value → List Value
  | [] => []
  | v :: rest => norm v :: normAll rest

/-- The fields of an object, in the order of the source. -/
def normEach : List (String × Value) → List (String × Value)
  | [] => []
  | (key, v) :: rest => (key, norm v) :: normEach rest

end

theorem normAll_eq_map {items : List Value} : normAll items = items.map norm := by
  induction items with
  | nil => rw [normAll, List.map_nil]
  | cons v rest ih => rw [normAll, ih, List.map_cons]

theorem normEach_eq_map {fields : List (String × Value)} :
    normEach fields = fields.map fun f => (f.1, norm f.2) := by
  induction fields with
  | nil => rw [normEach, List.map_nil]
  | cons f rest ih =>
    obtain ⟨key, v⟩ := f
    rw [normEach, ih, List.map_cons]

theorem normEach_sorted {fields : List (String × Value)} : (normEach fields).insertionSort KeyLe =
      (fields.insertionSort KeyLe).map fun f => (f.1, norm f.2) := by
  rw [normEach_eq_map, map_insertionSort_snd norm]

section Text

variable {depth : ℕ}

theorem itemsText_writeItems {items : List Value} {first : Bool} {t : List Char}
    (hitems : ∀ v ∈ items, ∀ t, writeValue v depth = .ok t → ValueText t (norm v))
    (h : writeItems first (items.map fun v => writeValue v depth) = .ok t) :
    (items = [] ∧ t = []) ∨
      ∃ body, ItemsText body (items.map norm) ∧ t = (if first then [] else [',']) ++ body := by
  induction items generalizing first t with
  | nil => exact .inl ⟨rfl, (Except.ok.inj h).symm⟩
  | cons v rest ih =>
    rw [List.map_cons, writeItems] at h
    obtain ⟨text, htext, h⟩ := bind_eq_ok.mp h
    obtain ⟨more, hmore, h⟩ := bind_eq_ok.mp h
    cases h
    have hv := hitems v (.head _) text htext
    refine .inr ?_
    rcases ih (fun w hw => hitems w (.tail v hw)) hmore with
      ⟨rfl, rfl⟩ | ⟨body, hbody, rfl⟩
    · refine ⟨[] ++ text ++ [], .one isBlank_nil hv isBlank_nil, ?_⟩
      simp
    · refine ⟨[] ++ text ++ [] ++ ',' :: body, .more isBlank_nil hv isBlank_nil hbody, ?_⟩
      simp

theorem fieldsText_writeFields {fields : List (String × Value)} {previous : Option String}
    {t : List Char}
    (hfields : ∀ f ∈ fields, ∀ t, writeValue f.2 depth = .ok t → ValueText t (norm f.2))
    (h : writeFields previous (fields.map fun f => (f.1, writeValue f.2 depth)) = .ok t) :
    (fields = [] ∧ t = []) ∨
      ∃ body, FieldsText body (fields.map fun f => (f.1, norm f.2)) ∧
        t = (if previous.isSome then [','] else []) ++ body := by
  induction fields generalizing previous t with
  | nil => exact .inl ⟨rfl, (Except.ok.inj h).symm⟩
  | cons f rest ih =>
    rw [List.map_cons, writeFields] at h
    split at h
    · cases h
    obtain ⟨text, htext, h⟩ := bind_eq_ok.mp h
    obtain ⟨more, hmore, h⟩ := bind_eq_ok.mp h
    cases h
    have hv := hfields f (.head _) text htext
    have hname := stringText_writeString f.1
    refine .inr ?_
    rcases ih (fun g hg => hfields g (.tail f hg)) hmore with
      ⟨rfl, rfl⟩ | ⟨body, hbody, rfl⟩
    · refine ⟨[] ++ writeString f.1 ++ [] ++ ':' :: [] ++ text ++ [],
        .one isBlank_nil hname isBlank_nil isBlank_nil hv isBlank_nil, ?_⟩
      simp
    · refine ⟨[] ++ writeString f.1 ++ [] ++ ':' :: [] ++ text ++ [] ++ ',' :: body,
        .more isBlank_nil hname isBlank_nil isBlank_nil hv isBlank_nil hbody, ?_⟩
      simp

/-- The text that is written denotes the value, up to order and representation. -/
theorem valueText_writeValue {v : Value} {t : List Char} (h : writeValue v depth = .ok t) :
    ValueText t (norm v) := by
  induction v using Value.nested generalizing depth t with
  | null =>
    rw [writeValue, atDepth_eq_ok] at h
    rw [← Except.ok.inj h.2, norm]
    exact .null
  | bool b =>
    cases b
    all_goals
      rw [writeValue, atDepth_eq_ok] at h
      rw [← Except.ok.inj h.2, norm]
    · exact .false
    · exact .true
  | integer | unsigned =>
    rw [writeValue, atDepth_eq_ok] at h
    rw [norm]
    exact .number (numberText_writeInteger h.2)
  | string s =>
    rw [writeValue, atDepth_eq_ok] at h
    rw [← Except.ok.inj h.2, norm]
    exact .string (stringText_writeString s)
  | array items ih =>
    rw [writeValue, atDepth_eq_ok, writeAll_eq_map] at h
    obtain ⟨text, htext, rfl⟩ := map_eq_ok.mp h.2
    rw [norm, normAll_eq_map]
    rcases itemsText_writeItems (fun v hv t ht => ih v hv ht) htext with
      ⟨rfl, rfl⟩ | ⟨body, hbody, rfl⟩
    · exact .emptyArray isBlank_nil
    · exact .array hbody
  | object fields ih =>
    rw [writeValue, atDepth_eq_ok] at h
    obtain ⟨text, htext, rfl⟩ := map_eq_ok.mp h.2
    have hnodup := nodup_of_writeFields htext (List.pairwise_insertionSort KeyLe _)
    rw [writeEach_sorted] at htext hnodup
    rw [norm, normEach_sorted]
    have hall : ∀ f ∈ fields.insertionSort KeyLe, ∀ t, writeValue f.2 (depth + 1) = .ok t →
        ValueText t (norm f.2) := fun f hf t ht =>
      ih f ((List.mem_insertionSort KeyLe).mp hf) ht
    rcases fieldsText_writeFields hall htext with ⟨hnil, rfl⟩ | ⟨body, hbody, rfl⟩
    · rw [hnil]
      exact .emptyObject isBlank_nil
    · refine .object hbody ?_
      rw [List.map_map] at hnodup ⊢
      exact hnodup

end Text

/-! ### Values that are the same -/

/-- Equality up to the order of the fields of objects, at every depth, and up to the
representation of numbers. -/
inductive Same : Value → Value → Prop
  | refl (v : Value) : Same v v
  | symm {v w : Value} : Same v w → Same w v
  | trans {u v w : Value} : Same u v → Same v w → Same u w
  | number (n : ℕ) : Same (.integer n) (.unsigned n)
  | item {before after : List Value} {v w : Value} : Same v w →
      Same (.array (before ++ v :: after)) (.array (before ++ w :: after))
  | field {before after : List (String × Value)} {key : String} {v w : Value} : Same v w →
      Same (.object (before ++ (key, v) :: after)) (.object (before ++ (key, w) :: after))
  | reorder {fields fields' : List (String × Value)} : fields.Perm fields' →
      Same (.object fields) (.object fields')

theorem Same.items {vs ws : List Value} (h : List.Forall₂ Same vs ws) (before : List Value) :
    Same (.array (before ++ vs)) (.array (before ++ ws)) := by
  induction h generalizing before with
  | nil => exact .refl _
  | @cons v w vs ws hv hrest ih =>
    have hfirst : Same (.array (before ++ v :: vs)) (.array (before ++ w :: vs)) := .item hv
    have hafter := ih (before ++ [w])
    rw [List.append_assoc, List.append_assoc] at hafter
    exact hfirst.trans hafter

theorem Same.fields {fs gs : List (String × Value)}
    (h : List.Forall₂ (fun f g => f.1 = g.1 ∧ Same f.2 g.2) fs gs) (before : List (String × Value)) :
    Same (.object (before ++ fs)) (.object (before ++ gs)) := by
  induction h generalizing before with
  | nil => exact .refl _
  | @cons f g fs gs hf hrest ih =>
    obtain ⟨key, v⟩ := f
    obtain ⟨key', w⟩ := g
    obtain ⟨rfl, hv⟩ := hf
    have hfirst : Same (.object (before ++ (key, v) :: fs)) (.object (before ++ (key, w) :: fs)) :=
      .field hv
    have hafter := ih (before ++ [(key, w)])
    rw [List.append_assoc, List.append_assoc] at hafter
    exact hfirst.trans hafter

theorem same_normInteger (n : ℤ) : Same (.integer n) (normInteger n) := by
  unfold normInteger
  split
  · exact .refl _
  · next hn =>
    have hnumber := Same.number n.natAbs
    rwa [show (n.natAbs : ℤ) = n by omega] at hnumber

theorem same_norm (v : Value) : Same v (norm v) := by
  induction v using Value.nested with
  | null | bool | string =>
    rw [norm]
    exact .refl _
  | integer n =>
    rw [norm]
    exact same_normInteger n
  | unsigned n =>
    rw [norm]
    exact (Same.number n).symm.trans (same_normInteger n)
  | array items ih =>
    rw [norm, normAll_eq_map]
    refine Same.items (List.forall₂_map_right_iff.mpr ?_) []
    exact List.forall₂_same.mpr ih
  | object fields ih =>
    rw [norm, normEach_eq_map]
    refine .trans (Same.fields (List.forall₂_map_right_iff.mpr ?_) [])
      (.reorder (List.perm_insertionSort KeyLe _).symm)
    exact List.forall₂_same.mpr fun f hf => ⟨rfl, ih f hf⟩

/-! ### One form for all that are the same -/

/-- Which error a part failed with does not matter to whether the whole succeeds. -/
theorem toOption_bind {α β : Type} (x : Except CanonicalError α) (f : α → Except CanonicalError β) :
    (x >>= f).toOption = x.toOption.bind fun a => (f a).toOption := by
  cases x <;> rfl

theorem toOption_map {α β : Type} (x : Except CanonicalError α) (f : α → β) :
    (x.map f).toOption = x.toOption.map f := by
  cases x <;> rfl

theorem toOption_atDepth {depth : ℕ} (x : Except CanonicalError (List Char)) :
    (atDepth depth x).toOption = if maxDepth < depth then none else x.toOption := by
  unfold atDepth
  split <;> rfl

theorem writeItems_congr {items items' : List (Except CanonicalError (List Char))} {first : Bool}
    (h : items.map Except.toOption = items'.map Except.toOption) :
    (writeItems first items).toOption = (writeItems first items').toOption := by
  induction items generalizing items' first with
  | nil =>
    rw [List.map_eq_nil_iff.mp h.symm]
  | cons item rest ih =>
    cases items' with
    | nil => exact absurd h (List.cons_ne_nil _ _)
    | cons =>
      obtain ⟨hitem, hrest⟩ := List.cons.inj h
      simp only [writeItems, toOption_bind, hitem, ih hrest]

theorem writeFields_congr {fields fields' : List (String × Except CanonicalError (List Char))}
    {previous : Option String}
    (h : fields.map (fun f => (f.1, f.2.toOption)) = fields'.map fun f => (f.1, f.2.toOption)) :
    (writeFields previous fields).toOption = (writeFields previous fields').toOption := by
  induction fields generalizing fields' previous with
  | nil =>
    rw [List.map_eq_nil_iff.mp h.symm]
  | cons f rest ih =>
    cases fields' with
    | nil => exact absurd h (List.cons_ne_nil _ _)
    | cons f' =>
      obtain ⟨hf, hrest⟩ := List.cons.inj h
      obtain ⟨key, child⟩ := f
      obtain ⟨key', child'⟩ := f'
      obtain ⟨rfl, hchild⟩ := Prod.mk.inj hf
      rw [writeFields, writeFields]
      split
      · rfl
      · simp only [toOption_bind, hchild, ih hrest]

theorem toOption_writeArray {items : List Value} {depth : ℕ} :
    (writeValue (.array items) depth).toOption =
      if maxDepth < depth then none
      else (writeItems true (writeAll items (depth + 1))).toOption.map fun text =>
        '[' :: text ++ [']'] := by
  rw [writeValue, toOption_atDepth, toOption_map]

theorem toOption_writeObject {fields : List (String × Value)} {depth : ℕ} :
    (writeValue (.object fields) depth).toOption =
      if maxDepth < depth then none
      else (writeFields none ((writeEach fields (depth + 1)).insertionSort KeyLe)).toOption.map
        fun text => '{' :: text ++ ['}'] := by
  rw [writeValue, toOption_atDepth, toOption_map]

/-- The order of fields makes no difference: either their keys are distinct, and they are written
in one order, or nothing is written. -/
theorem writeFields_reorder {fields fields' : List (String × Value)} {depth : ℕ}
    (h : fields.Perm fields') :
    (writeFields none ((writeEach fields depth).insertionSort KeyLe)).toOption =
      (writeFields none ((writeEach fields' depth).insertionSort KeyLe)).toOption := by
  have hperm : (writeEach fields depth).Perm (writeEach fields' depth) := by
    rw [writeEach_eq_map, writeEach_eq_map]
    exact h.map _
  by_cases hnodup : ((writeEach fields depth).map Prod.fst).Nodup
  · rw [insertionSort_eq_of_perm hperm hnodup]
  have hnone : ∀ l : List (String × Except CanonicalError (List Char)),
      ¬ (l.map Prod.fst).Nodup → (writeFields none (l.insertionSort KeyLe)).toOption = none := by
    intro l hl
    cases hresult : writeFields none (l.insertionSort KeyLe) with
    | error => rfl
    | ok =>
      have hsorted := nodup_of_writeFields hresult (List.pairwise_insertionSort KeyLe _)
      exact absurd (((List.perm_insertionSort KeyLe l).map Prod.fst).nodup_iff.mp hsorted) hl
  rw [hnone _ hnodup, hnone _ fun hnodup' => hnodup ((hperm.map Prod.fst).nodup_iff.mpr hnodup')]

theorem Same.writeValue {v w : Value} (h : Same v w) (depth : ℕ) :
    (writeValue v depth).toOption = (writeValue w depth).toOption := by
  induction h generalizing depth with
  | refl => rfl
  | symm _ ih => exact (ih depth).symm
  | trans _ _ ih ih' => exact (ih depth).trans (ih' depth)
  | number => rw [Canon.writeValue, Canon.writeValue]
  | @item before after v w _ ih =>
    rw [toOption_writeArray, toOption_writeArray]
    have hitems : (writeAll (before ++ v :: after) (depth + 1)).map Except.toOption =
        (writeAll (before ++ w :: after) (depth + 1)).map Except.toOption := by
      simp only [writeAll_eq_map, List.map_append, List.map_cons, ih]
    rw [writeItems_congr hitems]
  | @field before after key v w _ ih =>
    rw [toOption_writeObject, toOption_writeObject]
    have hfields : ((writeEach (before ++ (key, v) :: after) (depth + 1)).insertionSort KeyLe).map
          (fun f => (f.1, f.2.toOption)) =
        ((writeEach (before ++ (key, w) :: after) (depth + 1)).insertionSort KeyLe).map
          fun f => (f.1, f.2.toOption) := by
      simp only [map_insertionSort_snd, writeEach_eq_map, List.map_append, List.map_cons, ih]
    rw [writeFields_congr hfields]
  | reorder hperm =>
    rw [toOption_writeObject, toOption_writeObject, writeFields_reorder hperm]

theorem canonicalizeValue_eq_ok {v : Value} {bytes : List UInt8} : canonicalizeValue v = .ok bytes ↔
      ∃ t, Canon.writeValue v 0 = .ok t ∧ bytes = encode t ∧
        (encode t).length ≤ maxCanonicalJsonBytes := by
  unfold canonicalizeValue
  rw [bind_eq_ok]
  constructor
  · rintro ⟨t, ht, h⟩
    split at h
    · cases h
    · next hsize => exact ⟨t, ht, (Except.ok.inj h).symm, not_lt.mp hsize⟩
  · rintro ⟨t, ht, rfl, hsize⟩
    exact ⟨t, ht, if_neg (not_lt.mpr hsize)⟩

theorem Same.canonicalizeValue {v w : Value} {bytes bytes' : List UInt8} (h : Same v w)
    (hv : canonicalizeValue v = .ok bytes) (hw : canonicalizeValue w = .ok bytes') :
    bytes = bytes' := by
  obtain ⟨t, ht, rfl, -⟩ := canonicalizeValue_eq_ok.mp hv
  obtain ⟨t', ht', rfl, -⟩ := canonicalizeValue_eq_ok.mp hw
  have heq := h.writeValue 0
  rw [ht, ht'] at heq
  rw [Option.some.inj heq]

/-- A form belongs to values that are the same. -/
theorem same_of_canonicalizeValue {v w : Value} {bytes : List UInt8}
    (hv : canonicalizeValue v = .ok bytes) (hw : canonicalizeValue w = .ok bytes) : Same v w := by
  obtain ⟨t, ht, rfl, -⟩ := canonicalizeValue_eq_ok.mp hv
  obtain ⟨t', ht', hbytes, -⟩ := canonicalizeValue_eq_ok.mp hw
  obtain rfl := Utf8.encode_injective hbytes
  -- the text denotes both, so it denotes one value
  have hnorm := (valueText_writeValue ht).unique (valueText_writeValue ht')
  have hsame := same_norm v
  rw [hnorm] at hsame
  exact hsame.trans (same_norm w).symm

/-- Two values have the same form exactly if they are equal up to the order of fields and the
representation of numbers. -/
theorem canonicalizeValue_eq_iff {v w : Value} {bytes bytes' : List UInt8}
    (hv : canonicalizeValue v = .ok bytes) (hw : canonicalizeValue w = .ok bytes') :
    bytes = bytes' ↔ Same v w := by
  constructor
  · rintro rfl
    exact same_of_canonicalizeValue hv hw
  · exact fun h => h.canonicalizeValue hv hw

theorem canonicalizeValue_eq_iff_fields :
    let v := Value.object [("b", .integer 1), ("a", .array [.null])]
    let w := Value.object [("a", .array [.null]), ("b", .unsigned 1)]
    let bytes := encode "\x7b\"a\":[null],\"b\":1\x7d".toList
    canonicalizeValue v = .ok bytes ∧ canonicalizeValue w = .ok bytes ∧ Same v w := by
  intro v w bytes
  have hv : canonicalizeValue v = .ok bytes := by decide +kernel
  have hw : canonicalizeValue w = .ok bytes := by decide +kernel
  exact ⟨hv, hw, (canonicalizeValue_eq_iff hv hw).mp rfl⟩

end BlindPass.Canon
