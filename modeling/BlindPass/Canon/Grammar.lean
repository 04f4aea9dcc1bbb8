import BlindPass.Fleet.Value

/-!
# The grammar of signed documents

Documents are JSON texts whose numbers are integers that every reader represents exactly. The
grammar is that of RFC 8259 without fractions and exponents; it says of each text which value it
denotes. Neither the size of a text nor the nesting or the number of its values is bounded here.
-/

namespace BlindPass.Fleet.Value

mutual

/-- How many values there are in a value, itself included. -/
def count : Value → ℕ
  | array items => 1 + countItems items
  | object fields => 1 + countFields fields
  | _ => 1

/-- How many values there are in the items of an array. -/
def countItems : List Value → ℕ
  | [] => 0
  | v :: rest => v.count + countItems rest

/-- How many values there are in the fields of an object. -/
def countFields : List (String × Value) → ℕ
  | [] => 0
  | (_, v) :: rest => v.count + countFields rest

end

mutual

/-- How many arrays and objects stand around the innermost value. -/
def depth : Value → ℕ
  | array items => depthItems items
  | object fields => depthFields fields
  | _ => 0

/-- The nesting within an array that has these items. -/
def depthItems : List Value → ℕ
  | [] => 0
  | v :: rest => max (v.depth + 1) (depthItems rest)

/-- The nesting within an object that has these fields. -/
def depthFields : List (String × Value) → ℕ
  | [] => 0
  | (_, v) :: rest => max (v.depth + 1) (depthFields rest)

end

/-- Induction on values: what holds of everything in an array or an object holds of it. -/
@[elab_as_elim]
theorem nested {P : Value → Prop} (null : P null) (bool : ∀ b, P (bool b))
    (integer : ∀ n, P (integer n)) (unsigned : ∀ n, P (unsigned n)) (string : ∀ s, P (string s))
    (array : ∀ items : List Value, (∀ v ∈ items, P v) → P (array items))
    (object : ∀ fields : List (String × Value), (∀ f ∈ fields, P f.2) → P (object fields))
    (v : Value) : P v := by
  refine @Value.rec P (fun items => ∀ v ∈ items, P v) (fun fields => ∀ f ∈ fields, P f.2)
    (fun f => P f.2) null bool integer unsigned string array object ?_ ?_ ?_ ?_ ?_ v
  · exact fun v hv => absurd hv List.not_mem_nil
  · intro v rest hv hrest w hw
    rcases List.mem_cons.mp hw with rfl | hw
    · exact hv
    · exact hrest w hw
  · exact fun f hf => absurd hf List.not_mem_nil
  · intro f rest hf hrest g hg
    rcases List.mem_cons.mp hg with rfl | hg
    · exact hf
    · exact hrest g hg
  · exact fun key v hv => hv

theorem count_pos (v : Value) : 0 < v.count := by
  cases v <;> unfold count <;> omega

end BlindPass.Fleet.Value

namespace BlindPass.Canon

open Fleet (Value maxSafeInteger)

/-! ### White space, numbers and strings -/

/-- A character that may stand between tokens. -/
def IsSpace (c : Char) : Prop := c = ' ' ∨ c = '\n' ∨ c = '\r' ∨ c = '\t'

instance : DecidablePred IsSpace := fun c =>
  inferInstanceAs (Decidable (c = ' ' ∨ c = '\n' ∨ c = '\r' ∨ c = '\t'))

/-- A text of white space. -/
def IsBlank (text : List Char) : Prop := ∀ c ∈ text, IsSpace c

theorem isBlank_nil : IsBlank [] := fun _ hc => absurd hc List.not_mem_nil

/-- The digits of a number, without leading zeros. -/
inductive IntText : List Char → Prop
  | zero : IntText ['0']
  | nonzero {d : Char} {rest : List Char} : d.isDigit = true → d ≠ '0' →
      (∀ c ∈ rest, c.isDigit = true) → IntText (d :: rest)

theorem IntText.isDigit {ds : List Char} (h : IntText ds) : ∀ c ∈ ds, c.isDigit = true := by
  cases h with
  | zero => exact List.forall_mem_singleton.mpr rfl
  | nonzero hd _ hrest =>
    intro c hc
    rcases List.mem_cons.mp hc with rfl | hc
    · exact hd
    · exact hrest c hc

/-- A number that every reader represents exactly. A minus sign makes it a signed one. -/
inductive NumberText : List Char → Value → Prop
  | unsigned {digits : List Char} : IntText digits → Nat.ofDigitChars 10 digits 0 ≤ maxSafeInteger →
      NumberText digits (.unsigned (Nat.ofDigitChars 10 digits 0))
  | negative {digits : List Char} : IntText digits → Nat.ofDigitChars 10 digits 0 ≤ maxSafeInteger →
      NumberText ('-' :: digits) (.integer (-(Nat.ofDigitChars 10 digits 0 : ℤ)))

/-- A hexadecimal digit and its value. -/
inductive HexDigit : Char → ℕ → Prop
  | digit {c : Char} : c.isDigit = true → HexDigit c (c.toNat - 48)
  | lower {c : Char} : 'a' ≤ c → c ≤ 'f' → HexDigit c (c.toNat - 97 + 10)
  | upper {c : Char} : 'A' ≤ c → c ≤ 'F' → HexDigit c (c.toNat - 65 + 10)

/-- Four hexadecimal digits. -/
inductive HexQuad : List Char → ℕ → Prop
  | mk {a b c d : Char} {w x y z : ℕ} : HexDigit a w → HexDigit b x → HexDigit c y →
      HexDigit d z → HexQuad [a, b, c, d] (((w * 16 + x) * 16 + y) * 16 + z)

/-- What may follow a backslash, and the character it stands for. -/
def escapes : List (Char × Char) :=
  [('"', '"'), ('\\', '\\'), ('/', '/'), ('b', '\x08'), ('f', '\x0c'), ('n', '\n'), ('r', '\r'),
    ('t', '\t')]

/-- A character of a string. Characters beyond the first plane are written as they are, or as a
pair of surrogates. -/
inductive CharText : List Char → Char → Prop
  | plain {c : Char} : ' ' ≤ c → c ≠ '"' → c ≠ '\\' → CharText [c] c
  | escape {e c : Char} : (e, c) ∈ escapes → CharText ['\\', e] c
  | unicode {quad : List Char} {n : ℕ} : HexQuad quad n → n < 0xd800 ∨ 0xdfff < n →
      CharText ('\\' :: 'u' :: quad) (Char.ofNat n)
  | surrogates {quad quad' : List Char} {high low : ℕ} : HexQuad quad high → HexQuad quad' low →
      0xd800 ≤ high → high ≤ 0xdbff → 0xdc00 ≤ low → low ≤ 0xdfff →
      CharText ('\\' :: 'u' :: quad ++ '\\' :: 'u' :: quad')
        (Char.ofNat (0x10000 + (high - 0xd800) * 0x400 + (low - 0xdc00)))

/-- The characters of a string. -/
inductive CharsText : List Char → List Char → Prop
  | nil : CharsText [] []
  | cons {text rest : List Char} {c : Char} {chars : List Char} : CharText text c →
      CharsText rest chars → CharsText (text ++ rest) (c :: chars)

/-- A string between its quotes. -/
inductive StringText : List Char → String → Prop
  | mk {body : List Char} {s : String} : CharsText body s.toList →
      StringText ('"' :: body ++ ['"']) s

/-! ### Values -/

mutual

/-- A text without white space around it denotes a value. -/
inductive ValueText : List Char → Value → Prop
  | null : ValueText ['n', 'u', 'l', 'l'] .null
  | true : ValueText ['t', 'r', 'u', 'e'] (.bool true)
  | false : ValueText ['f', 'a', 'l', 's', 'e'] (.bool false)
  | number {text v} : NumberText text v → ValueText text v
  | string {text s} : StringText text s → ValueText text (.string s)
  | emptyArray {blank} : IsBlank blank → ValueText ('[' :: blank ++ [']']) (.array [])
  | array {text items} : ItemsText text items → ValueText ('[' :: text ++ [']']) (.array items)
  | emptyObject {blank} : IsBlank blank → ValueText ('{' :: blank ++ ['}']) (.object [])
  | object {text fields} : FieldsText text fields → (fields.map Prod.fst).Nodup →
      ValueText ('{' :: text ++ ['}']) (.object fields)

/-- The items of an array, at least one, with the commas between them. -/
inductive ItemsText : List Char → List Value → Prop
  | one {before text after v} : IsBlank before → ValueText text v → IsBlank after →
      ItemsText (before ++ text ++ after) [v]
  | more {before text after v rest items} : IsBlank before → ValueText text v → IsBlank after →
      ItemsText rest items → ItemsText (before ++ text ++ after ++ ',' :: rest) (v :: items)

/-- The fields of an object, at least one, with the commas between them. -/
inductive FieldsText : List Char → List (String × Value) → Prop
  | one {before name between between' text after key v} : IsBlank before → StringText name key →
      IsBlank between → IsBlank between' → ValueText text v → IsBlank after →
      FieldsText (before ++ name ++ between ++ ':' :: between' ++ text ++ after) [(key, v)]
  | more {before name between between' text after key v rest fields} : IsBlank before →
      StringText name key → IsBlank between → IsBlank between' → ValueText text v →
      IsBlank after → FieldsText rest fields →
      FieldsText (before ++ name ++ between ++ ':' :: between' ++ text ++ after ++ ',' :: rest)
        ((key, v) :: fields)

end

/-- The text denotes the value. -/
inductive Denotes : List Char → Value → Prop
  | mk {before text after v} : IsBlank before → ValueText text v → IsBlank after →
      Denotes (before ++ text ++ after) v

end BlindPass.Canon
