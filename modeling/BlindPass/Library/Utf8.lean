import Mathlib

/-!
# Encodings of text

A text is a list of characters; on the wire it is its UTF-8 bytes. A byte below 128 is a
character of its own, so a program that looks for such characters may go byte by byte and stays
between characters.
-/

namespace Utf8

/-- The bytes of a text. -/
def encode (text : List Char) : List UInt8 := text.flatMap String.utf8EncodeChar

variable {c : Char} {text text' : List Char} {b : UInt8} {bytes : List UInt8}

@[simp] theorem encode_nil : encode [] = [] := rfl

theorem encode_cons : encode (c :: text) = String.utf8EncodeChar c ++ encode text :=
  List.flatMap_cons

@[simp] theorem encode_append : encode (text ++ text') = encode text ++ encode text' :=
  List.flatMap_append

theorem utf8ByteSize_eq (s : String) : s.utf8ByteSize = (encode s.toList).length := by
  obtain ⟨text, rfl⟩ : ∃ text, s = String.ofList text := ⟨s.toList, by simp⟩
  rw [String.toList_ofList, encode]
  simp [← String.size_toByteArray, String.toByteArray_ofList, List.utf8Encode]

/-- A character whose code is its only byte. -/
def IsAscii (c : Char) : Prop := c.toNat < 128

instance : DecidablePred IsAscii := fun c => inferInstanceAs (Decidable (c.toNat < 128))

/-- The characters of a text are tried, not all characters. -/
instance (priority := high) decidableForallMem {p : Char → Prop} [DecidablePred p] (text : List Char) :
    Decidable (∀ c ∈ text, p c) := List.decidableBAll p text

theorem encodeChar_of_isAscii (h : IsAscii c) : String.utf8EncodeChar c = [c.toUInt8] := by
  have hle : c.val.toNat ≤ 127 := Nat.le_of_lt_succ h
  rw [String.utf8EncodeChar, if_pos hle]
  rfl

/-- No byte of any other character is below 128. -/
theorem le_of_mem_encodeChar (h : ¬ IsAscii c) {b : UInt8} (hb : b ∈ String.utf8EncodeChar c) :
    128 ≤ b.toNat := by
  have hlt : ¬ c.val.toNat ≤ 127 := fun hle => h (Nat.lt_succ_of_le hle)
  rw [String.utf8EncodeChar, if_neg hlt] at hb
  split at hb
  · simp at hb
    rcases hb with rfl | rfl <;> simp <;> omega
  split at hb
  · simp at hb
    rcases hb with rfl | rfl | rfl <;> simp <;> omega
  · simp at hb
    rcases hb with rfl | rfl | rfl | rfl <;> simp <;> omega

theorem encodeChar_of_not_isAscii (h : ¬ IsAscii c) :
    ∃ b bytes, String.utf8EncodeChar c = b :: bytes ∧ 128 ≤ b.toNat := by
  obtain ⟨b, bytes, hb⟩ := List.exists_cons_of_ne_nil (l := String.utf8EncodeChar c)
    (List.ne_nil_of_length_pos (String.length_utf8EncodeChar c ▸ c.utf8Size_pos))
  exact ⟨b, bytes, hb, le_of_mem_encodeChar h (hb ▸ .head _)⟩

theorem encode_cons_of_isAscii (h : IsAscii c) : encode (c :: text) = c.toUInt8 :: encode text := by
  rw [encode_cons, encodeChar_of_isAscii h]
  rfl

theorem encode_of_isAscii (h : ∀ c ∈ text, IsAscii c) : encode text = text.map Char.toUInt8 := by
  induction text with
  | nil => rfl
  | cons c rest ih =>
    rw [encode_cons_of_isAscii (h c (.head _)), List.map_cons,
      ih fun c' hc' => h c' (.tail c hc')]

theorem length_encode_of_isAscii (h : ∀ c ∈ text, IsAscii c) :
    (encode text).length = text.length := by
  rw [encode_of_isAscii h, List.length_map]

theorem ofUInt8_toUInt8 (h : IsAscii c) : Char.ofUInt8 c.toUInt8 = c := by
  have hlt : c.toNat < 256 := Nat.lt_trans h (by decide)
  apply Char.ext
  apply UInt32.toNat_inj.mp
  change c.toNat % 256 = c.toNat
  exact Nat.mod_eq_of_lt hlt

/-- The bytes of a text have no newline unless the text has one. -/
theorem newline_notMem_encode (h : '\n' ∉ text) : 10 ∉ encode text := by
  intro hmem
  obtain ⟨c, hc, hbyte⟩ := List.mem_flatMap.mp hmem
  by_cases hascii : IsAscii c
  · rw [encodeChar_of_isAscii hascii, List.mem_singleton] at hbyte
    have hsame : Char.ofUInt8 c.toUInt8 = '\n' := congrArg _ hbyte.symm
    rw [ofUInt8_toUInt8 hascii] at hsame
    exact h (hsame ▸ hc)
  · exact absurd (le_of_mem_encodeChar hascii hbyte) (by decide)

/-- The first byte is below 128 exactly if it is the first character. -/
theorem head_encode {a : Char} (ha : IsAscii a) :
    (encode text).head?.map Char.ofUInt8 = some a ↔ ∃ rest, text = a :: rest := by
  constructor
  · intro h
    cases text with
    | nil => cases h
    | cons c rest =>
      refine ⟨rest, ?_⟩
      by_cases hc : IsAscii c
      · rw [encode_cons_of_isAscii hc] at h
        have heq : Char.ofUInt8 c.toUInt8 = a := Option.some.inj h
        rw [← heq, ofUInt8_toUInt8 hc]
      · -- the code of `a` would be that of a byte from 128 on
        obtain ⟨b, bytes, hb, hge⟩ := encodeChar_of_not_isAscii hc
        rw [encode_cons, hb] at h
        have heq : Char.ofUInt8 b = a := Option.some.inj h
        have hcode : a.toNat = b.toNat := by
          rw [← heq]
          rfl
        have : a.toNat < 128 := ha
        omega
  · rintro ⟨rest, rfl⟩
    rw [encode_cons_of_isAscii ha]
    exact congrArg some (ofUInt8_toUInt8 ha)

theorem tail_encode {a : Char} (ha : IsAscii a) : (encode (a :: text)).tail = encode text := by
  rw [encode_cons_of_isAscii ha]
  rfl

theorem isAscii_ofUInt8 : IsAscii (Char.ofUInt8 b) ↔ b.toNat < 128 := Iff.rfl

/-- A byte below 128 is a character of its own. -/
theorem encode_eq_cons (h : encode text = b :: bytes) (hb : IsAscii (Char.ofUInt8 b)) :
    ∃ rest, text = Char.ofUInt8 b :: rest ∧ bytes = encode rest := by
  obtain ⟨rest, rfl⟩ := (head_encode hb).mp (by rw [h]; rfl)
  refine ⟨rest, rfl, ?_⟩
  have htail : (encode (Char.ofUInt8 b :: rest)).tail = encode rest := tail_encode hb
  rw [h] at htail
  exact htail

theorem length_le_length_encode : text.length ≤ (encode text).length := by
  induction text with
  | nil => exact Nat.le_refl 0
  | cons c =>
    have hpos := c.utf8Size_pos
    rw [encode_cons, List.length_append, String.length_utf8EncodeChar, List.length_cons]
    omega

theorem map_encode (h : ∀ c ∈ text, IsAscii c) : (encode text).map Char.ofUInt8 = text := by
  induction text with
  | nil => rfl
  | cons c rest ih =>
    have hc := h c (.head _)
    rw [encode_cons_of_isAscii hc, List.map_cons, ofUInt8_toUInt8 hc,
      ih fun c' hc' => h c' (.tail c hc')]

section While

variable {p : Char → Bool}

/-- Looking at the first byte tells whether the first character has a property of characters below
128. -/
theorem head_encode_of_ascii (c : Char) (text : List Char) (hp : ∀ c, p c = true → IsAscii c) :
    ∃ b bytes, encode (c :: text) = b :: bytes ∧ p (Char.ofUInt8 b) = p c ∧
      (p c = true → bytes = encode text) := by
  by_cases hc : IsAscii c
  · refine ⟨_, _, encode_cons_of_isAscii hc, ?_, fun _ => rfl⟩
    rw [ofUInt8_toUInt8 hc]
  obtain ⟨b, bytes, hb, hge⟩ := encodeChar_of_not_isAscii hc
  have hfalse : ∀ c', ¬ IsAscii c' → p c' = false := fun c' hc' =>
    Bool.eq_false_iff.mpr fun h => hc' (hp c' h)
  have hbyte : p (Char.ofUInt8 b) = false := hfalse _ fun h => by
    have := isAscii_ofUInt8.mp h
    omega
  refine ⟨b, bytes ++ encode text, ?_, ?_, ?_⟩
  · rw [encode_cons, hb, List.cons_append]
  · rw [hbyte, hfalse c hc]
  · intro h
    exact absurd (hp c h) hc

theorem dropWhile_encode (hp : ∀ c, p c = true → IsAscii c) :
    (encode text).dropWhile (fun b => p (Char.ofUInt8 b)) = encode (text.dropWhile p) := by
  induction text with
  | nil => rfl
  | cons c rest ih =>
    obtain ⟨b, bytes, hbytes, hbyte, hrest⟩ := head_encode_of_ascii c rest hp
    by_cases hc : p c = true
    · rw [List.dropWhile_cons_of_pos hc, hbytes, List.dropWhile_cons_of_pos, hrest hc, ih]
      rw [hbyte]
      exact hc
    · rw [List.dropWhile_cons_of_neg hc, hbytes, List.dropWhile_cons_of_neg]
      rw [hbyte]
      exact hc

theorem takeWhile_encode (hp : ∀ c, p c = true → IsAscii c) :
    (encode text).takeWhile (fun b => p (Char.ofUInt8 b)) = encode (text.takeWhile p) := by
  induction text with
  | nil => rfl
  | cons c rest ih =>
    obtain ⟨b, bytes, hbytes, hbyte, hrest⟩ := head_encode_of_ascii c rest hp
    by_cases hc : p c = true
    · have hascii := hp c hc
      rw [List.takeWhile_cons_of_pos hc, encode_cons_of_isAscii hascii, encode_cons_of_isAscii hascii,
        List.takeWhile_cons_of_pos, ih]
      rw [ofUInt8_toUInt8 hascii]
      exact hc
    · rw [List.takeWhile_cons_of_neg hc, hbytes, List.takeWhile_cons_of_neg]
      · rfl
      · rw [hbyte]
        exact hc

end While

/-! ### Reading back -/

/-- The character some bytes start with. -/
def firstChar? (bytes : List UInt8) : Option Char := bytes.toByteArray.utf8DecodeChar? 0

theorem firstChar?_encode : firstChar? (encode (c :: text)) = some c := by
  rw [firstChar?, encode_cons, List.toByteArray_append]
  exact ByteArray.utf8DecodeChar?_utf8EncodeChar_append

theorem encode_injective : Function.Injective encode := by
  intro text
  induction text with
  | nil =>
    intro text' h
    cases text' with
    | nil => rfl
    | cons =>
      rw [encode_nil, encode_cons] at h
      exact absurd (List.append_eq_nil_iff.mp h.symm).1 String.utf8EncodeChar_ne_nil
  | cons c rest ih =>
    intro text' h
    cases text' with
    | nil =>
      rw [encode_nil, encode_cons] at h
      exact absurd (List.append_eq_nil_iff.mp h).1 String.utf8EncodeChar_ne_nil
    | cons =>
      have hfirst := congrArg firstChar? h
      rw [firstChar?_encode, firstChar?_encode] at hfirst
      cases hfirst
      rw [encode_cons, encode_cons] at h
      rw [ih (List.append_cancel_left h)]

/-- `from_utf8`: the text that has these bytes, if any. -/
def decode? (bytes : List UInt8) : Option (List Char) :=
  bytes.toByteArray.utf8Decode?.map Array.toList

theorem toByteArray_encode : (encode text).toByteArray = text.utf8Encode := rfl

theorem decode?_eq_some : decode? bytes = some text ↔ bytes = encode text := by
  constructor
  · intro h
    obtain ⟨chars, hchars, rfl⟩ := Option.map_eq_some_iff.mp h
    have hback := ByteArray.utf8Encode_get_utf8Decode? (b := bytes.toByteArray)
      (h := by rw [hchars]; rfl)
    simp only [hchars, Option.get_some] at hback
    rw [← toByteArray_encode] at hback
    have hlists := congrArg (fun b => b.data.toList) hback
    simpa using hlists.symm
  · rintro rfl
    rw [decode?, toByteArray_encode, List.utf8Decode?_utf8Encode]
    simp

end Utf8

namespace Utf16

/-- The code units of a character. -/
def unitsOf (c : Char) : List ℕ :=
  if c.toNat < 0x10000 then [c.toNat]
  else [0xd800 + (c.toNat - 0x10000) / 0x400, 0xdc00 + (c.toNat - 0x10000) % 0x400]

/-- The code units of a text. -/
def units (text : List Char) : List ℕ := text.flatMap unitsOf

variable {c : Char} {text : List Char}

theorem units_cons : units (c :: text) = unitsOf c ++ units text := List.flatMap_cons

/-- No character has a surrogate as its code. -/
theorem code_valid (c : Char) : c.toNat < 0xd800 ∨ 0xdfff < c.toNat ∧ c.toNat < 0x110000 := c.valid

theorem unitsOf_ne_nil : unitsOf c ≠ [] := by
  unfold unitsOf
  split <;> exact List.cons_ne_nil _ _

/-- The units of a text start with those of its first character, and of no other. -/
theorem unitsOf_append_inj {c' : Char} {rest rest' : List ℕ}
    (h : unitsOf c ++ rest = unitsOf c' ++ rest') : c = c' ∧ rest = rest' := by
  have hcode := code_valid c
  have hcode' := code_valid c'
  unfold unitsOf at h
  split at h
  · split at h
    · obtain ⟨heq, hrest⟩ := List.cons.inj h
      exact ⟨Char.toNat_inj.mp heq, hrest⟩
    · -- a code that is a unit is no surrogate
      have heq := (List.cons.inj h).1
      omega
  · split at h
    · have heq := (List.cons.inj h).1
      omega
    · obtain ⟨hhigh, hrest⟩ := List.cons.inj h
      obtain ⟨hlow, hrest⟩ := List.cons.inj hrest
      exact ⟨Char.toNat_inj.mp (by omega), hrest⟩

theorem units_injective : Function.Injective units := by
  intro text
  induction text with
  | nil =>
    intro text' h
    cases text' with
    | nil => rfl
    | cons =>
      rw [units_cons] at h
      exact absurd (List.append_eq_nil_iff.mp h.symm).1 unitsOf_ne_nil
  | cons c rest ih =>
    intro text' h
    cases text' with
    | nil =>
      rw [units_cons] at h
      exact absurd (List.append_eq_nil_iff.mp h).1 unitsOf_ne_nil
    | cons =>
      rw [units_cons, units_cons] at h
      obtain ⟨rfl, hrest⟩ := unitsOf_append_inj h
      rw [ih hrest]

end Utf16
