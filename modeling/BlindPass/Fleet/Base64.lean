import Mathlib

/-!
# Unpadded base64url

Random identifiers and digests travel as base64url text. The decoder accepts canonical text
only: it encodes what it decoded and compares.
-/

namespace BlindPass.Fleet

/-- The digits of the encoding, in order. -/
def base64Alphabet : List Char :=
  "ABCDEFGHIJKLMNOPQRSTUVWXYZabcdefghijklmnopqrstuvwxyz0123456789-_".toList

/-- The character of a digit. -/
def base64Char (digit : UInt8) : Char := base64Alphabet.getD digit.toNat 'A'

/-- `base64_url_encode`, three bytes at a time. -/
def base64UrlEncode : List UInt8 → List Char
  | [] => []
  | [first] => [base64Char (first >>> 2), base64Char ((first &&& 0x03) <<< 4)]
  | [first, second] =>
    [base64Char (first >>> 2), base64Char (((first &&& 0x03) <<< 4) ||| (second >>> 4)),
      base64Char ((second &&& 0x0f) <<< 2)]
  | first :: second :: third :: rest =>
    base64Char (first >>> 2) :: base64Char (((first &&& 0x03) <<< 4) ||| (second >>> 4)) ::
      base64Char (((second &&& 0x0f) <<< 2) ||| (third >>> 6)) :: base64Char (third &&& 0x3f) ::
      base64UrlEncode rest

theorem base64Char_mem (digit : UInt8) : base64Char digit ∈ base64Alphabet := by
  unfold base64Char
  rw [List.getD_eq_getElem?_getD]
  cases h : base64Alphabet[digit.toNat]? with
  | none => exact .head _
  | some => exact List.mem_of_getElem? h

theorem mem_base64UrlEncode {bytes : List UInt8} {c : Char} (h : c ∈ base64UrlEncode bytes) :
    c ∈ base64Alphabet := by
  fun_induction base64UrlEncode bytes with
  | case1 => exact absurd h List.not_mem_nil
  | case2 first =>
    rcases List.mem_pair.mp h with rfl | rfl <;> exact base64Char_mem _
  | case3 first second =>
    simp only [List.mem_cons, List.not_mem_nil, or_false] at h
    rcases h with rfl | rfl | rfl <;> exact base64Char_mem _
  | case4 first second third rest ih =>
    simp only [List.mem_cons] at h
    rcases h with rfl | rfl | rfl | rfl | h
    · exact base64Char_mem _
    · exact base64Char_mem _
    · exact base64Char_mem _
    · exact base64Char_mem _
    · exact ih h

theorem length_base64UrlEncode_le (bytes : List UInt8) :
    (base64UrlEncode bytes).length ≤ 2 * bytes.length := by
  fun_induction base64UrlEncode bytes with
  | case1 => exact zero_le
  | case2 first => exact le_rfl
  | case3 first second =>
    simp only [List.length_cons, List.length_nil]
    omega
  | case4 first second third rest ih =>
    simp only [List.length_cons]
    omega

/-- The digit of a character. -/
def base64Digit? (c : Char) : Option UInt8 :=
  if 'A' ≤ c ∧ c ≤ 'Z' then some (c.toUInt8 - 'A'.toUInt8)
  else if 'a' ≤ c ∧ c ≤ 'z' then some (c.toUInt8 - 'a'.toUInt8 + 26)
  else if '0' ≤ c ∧ c ≤ '9' then some (c.toUInt8 - '0'.toUInt8 + 52)
  else if c = '-' then some 62
  else if c = '_' then some 63
  else none

/-- The bytes of the digits read so far, with the bits that are left over. -/
def base64Digits : List Char → UInt32 → ℕ → List UInt8 → Option (UInt32 × ℕ × List UInt8)
  | [], accumulator, bits, output => some (accumulator, bits, output)
  | c :: rest, accumulator, bits, output =>
    match base64Digit? c with
    | none => none
    | some digit =>
      let accumulator := (accumulator <<< 6) ||| digit.toUInt32
      if 8 ≤ bits + 6 then
        base64Digits rest accumulator (bits + 6 - 8)
          (output ++ [(accumulator >>> (bits + 6 - 8).toUInt32).toUInt8])
      else base64Digits rest accumulator (bits + 6) output

def base64UrlDecode (input : List Char) (expectedLen : ℕ) : Option (List UInt8) :=
  if input.isEmpty then none
  else
    match base64Digits input 0 0 [] with
    | none => none
    | some (accumulator, bits, output) =>
      if 0 < bits ∧ accumulator &&& ((1 <<< bits.toUInt32) - 1) ≠ 0 then none
      else if output.length = expectedLen ∧ base64UrlEncode output = input then some output
      else none

theorem base64Digit?_base64Char {digit : UInt8} (h : digit.toNat < 64) :
    base64Digit? (base64Char digit) = some digit := by
  have hall : ∀ n : Fin 64, base64Digit? (base64Char (UInt8.ofNat n)) = some (UInt8.ofNat n) := by
    decide +kernel
  have hdigit := hall ⟨digit.toNat, h⟩
  rwa [show UInt8.ofNat (⟨digit.toNat, h⟩ : Fin 64).val = digit from UInt8.ofNat_toNat] at hdigit

/-! ### Reading back -/

section Digits

variable (first second third digit : UInt8) (accumulator : UInt32)

/-- Bits put side by side are added. -/
theorem or_eq_add {a b i : ℕ} (hb : b < 2 ^ i) : (a * 2 ^ i) ||| b = a * 2 ^ i + b := by
  rw [← Nat.shiftLeft_eq, Nat.shiftLeft_add_eq_or_of_lt hb]

theorem toNat_high (n : ℕ) (hn : n < 8) : (first >>> UInt8.ofNat n).toNat = first.toNat / 2 ^ n := by
  have hsmall : n % 256 % 8 = n := by omega
  simp only [UInt8.toNat_shiftRight, UInt8.toNat_ofNat', hsmall, Nat.shiftRight_eq_div_pow]

theorem toNat_digit₀ : (first >>> 2).toNat = first.toNat / 4 := toNat_high first 2 (by decide)

theorem toNat_low {mask shift : UInt8} (i : ℕ) (hmask : mask.toNat = 2 ^ i - 1)
    (hfits : i + shift.toNat ≤ 8) :
    ((first &&& mask) <<< shift).toNat = first.toNat % 2 ^ i * 2 ^ (shift.toNat % 8) := by
  have hlt : first.toNat % 2 ^ i * 2 ^ (shift.toNat % 8) < 2 ^ 8 := by
    calc first.toNat % 2 ^ i * 2 ^ (shift.toNat % 8)
        < 2 ^ i * 2 ^ (shift.toNat % 8) :=
          Nat.mul_lt_mul_of_pos_right (Nat.mod_lt _ (Nat.two_pow_pos i)) (Nat.two_pow_pos _)
      _ = 2 ^ (i + shift.toNat % 8) := (Nat.pow_add ..).symm
      _ ≤ 2 ^ 8 := Nat.pow_le_pow_right (by decide) (by omega)
  rw [UInt8.toNat_shiftLeft, UInt8.toNat_and, hmask, Nat.and_two_pow_sub_one_eq_mod,
    Nat.shiftLeft_eq, Nat.mod_eq_of_lt hlt]

theorem toNat_low₁ : ((first &&& 0x03) <<< 4).toNat = first.toNat % 4 * 16 :=
  toNat_low first 2 rfl (by decide)

theorem toNat_low₂ : ((second &&& 0x0f) <<< 2).toNat = second.toNat % 16 * 4 :=
  toNat_low second 4 rfl (by decide)

theorem toNat_digit₁ : (((first &&& 0x03) <<< 4) ||| (second >>> 4)).toNat =
    first.toNat % 4 * 16 + second.toNat / 16 := by
  have hlt := second.toNat_lt
  have hhigh : (second >>> 4).toNat = second.toNat / 16 := toNat_high second 4 (by decide)
  rw [UInt8.toNat_or, toNat_low₁, hhigh]
  exact or_eq_add (i := 4) (by omega)

theorem toNat_digit₂ : (((second &&& 0x0f) <<< 2) ||| (third >>> 6)).toNat =
    second.toNat % 16 * 4 + third.toNat / 64 := by
  have hlt := third.toNat_lt
  have hhigh : (third >>> 6).toNat = third.toNat / 64 := toNat_high third 6 (by decide)
  rw [UInt8.toNat_or, toNat_low₂, hhigh]
  exact or_eq_add (i := 2) (by omega)

theorem toNat_digit₃ : (third &&& 0x3f).toNat = third.toNat % 64 := by
  rw [UInt8.toNat_and]
  exact Nat.and_two_pow_sub_one_eq_mod _ 6

theorem toNat_accumulate (h : digit.toNat < 64) :
    ((accumulator <<< 6) ||| digit.toUInt32).toNat = accumulator.toNat * 64 % 2 ^ 32 + digit.toNat := by
  have hshift : (accumulator <<< 6).toNat = accumulator.toNat % 2 ^ 26 * 2 ^ 6 := by
    rw [UInt32.toNat_shiftLeft, show (6 : UInt32).toNat % 32 = 6 from rfl, Nat.shiftLeft_eq]
    omega
  rw [UInt32.toNat_or, hshift, UInt8.toNat_toUInt32, or_eq_add h]
  omega

theorem toNat_byte (n : ℕ) (hn : n < 32) :
    (accumulator >>> n.toUInt32).toUInt8.toNat = accumulator.toNat / 2 ^ n % 256 := by
  have hsmall : n % 4294967296 % 32 = n := by omega
  simp only [UInt32.toNat_toUInt8, UInt32.toNat_shiftRight, Nat.toUInt32_eq, UInt32.toNat_ofNat',
    hsmall, Nat.shiftRight_eq_div_pow, Nat.reducePow]

end Digits

section Reading

variable {digit b : UInt8} {rest : List Char} {accumulator : UInt32} {output bytes : List UInt8}

/-- The text gives these bytes, and the bits left over behind them are zero. -/
def Reads (text : List Char) (accumulator : UInt32) (bits : ℕ) (output bytes : List UInt8) : Prop :=
  ∃ accumulator' bits', base64Digits text accumulator bits output =
    some (accumulator', bits', output ++ bytes) ∧ bits' ≤ 4 ∧ accumulator'.toNat % 2 ^ bits' = 0

theorem Reads.start (h : digit.toNat < 64)
    (hrest : ∀ a : UInt32, a.toNat % 64 = digit.toNat → Reads rest a 6 output bytes) :
    Reads (base64Char digit :: rest) accumulator 0 output bytes := by
  have hnew := toNat_accumulate digit accumulator h
  have hread := hrest _ (by rw [hnew]; omega)
  simpa [Reads, base64Digits, base64Digit?_base64Char h] using hread

/-- A digit completes the byte whose first bits were left over. -/
theorem Reads.byte (bits : ℕ) (hbits : bits ≤ 4) (h : digit.toNat < 64)
    (hb : accumulator.toNat % 2 ^ (bits + 2) * 2 ^ (6 - bits) + digit.toNat / 2 ^ bits = b.toNat)
    (hrest : ∀ a : UInt32, a.toNat % 2 ^ bits = digit.toNat % 2 ^ bits →
      Reads rest a bits (output ++ [b]) bytes) :
    Reads (base64Char digit :: rest) accumulator (bits + 2) output (b :: bytes) := by
  have hnew := toNat_accumulate digit accumulator h
  have hbyte : (((accumulator <<< 6) ||| digit.toUInt32) >>> bits.toUInt32).toUInt8 = b := by
    apply UInt8.toNat_inj.mp
    rw [toNat_byte _ bits (by omega), hnew, ← hb]
    interval_cases bits <;> omega
  have hread := hrest _ (by rw [hnew]; interval_cases bits <;> omega)
  have hfull : 8 ≤ bits + 2 + 6 := by omega
  simpa [Reads, base64Digits, base64Digit?_base64Char h, hfull, hbyte] using hread

/-- Decoding takes an encoded text back, whatever was read before. -/
theorem reads_base64UrlEncode (bytes : List UInt8) (accumulator : UInt32) (output : List UInt8) :
    Reads (base64UrlEncode bytes) accumulator 0 output bytes := by
  fun_induction base64UrlEncode bytes generalizing accumulator output with
  | case1 =>
    refine ⟨accumulator, 0, ?_, by decide, Nat.mod_one _⟩
    rw [base64Digits, List.append_nil]
  | case2 first =>
    have hlt := first.toNat_lt
    have h₀ := toNat_digit₀ first
    have h₁ := toNat_low₁ first
    refine Reads.start (by omega) fun a₀ ha₀ => ?_
    exact Reads.byte 4 (by decide) (by omega) (by omega) fun a₁ ha₁ =>
      ⟨a₁, 4, by rw [base64Digits, List.append_nil], by decide, by omega⟩
  | case3 first second =>
    have hlt := first.toNat_lt
    have hlt' := second.toNat_lt
    have h₀ := toNat_digit₀ first
    have h₁ := toNat_digit₁ first second
    have h₂ := toNat_low₂ second
    refine Reads.start (by omega) fun a₀ ha₀ => ?_
    refine Reads.byte 4 (by decide) (by omega) (by omega) fun a₁ ha₁ => ?_
    exact Reads.byte 2 (by decide) (by omega) (by omega) fun a₂ ha₂ =>
      ⟨a₂, 2, by rw [base64Digits, List.append_nil], by decide, by omega⟩
  | case4 first second third rest ih =>
    have hlt := first.toNat_lt
    have hlt' := second.toNat_lt
    have hlt'' := third.toNat_lt
    have h₀ := toNat_digit₀ first
    have h₁ := toNat_digit₁ first second
    have h₂ := toNat_digit₂ second third
    have h₃ := toNat_digit₃ third
    refine Reads.start (by omega) fun a₀ ha₀ => ?_
    refine Reads.byte 4 (by decide) (by omega) (by omega) fun a₁ ha₁ => ?_
    refine Reads.byte 2 (by decide) (by omega) (by omega) fun a₂ ha₂ => ?_
    exact Reads.byte 0 (by decide) (by omega) (by omega) fun a₃ _ => ih a₃ _

end Reading

theorem toNat_mask (accumulator : UInt32) {bits : ℕ} (h : bits ≤ 7) :
    (accumulator &&& ((1 <<< bits.toUInt32) - 1)).toNat = accumulator.toNat % 2 ^ bits := by
  have hmask : ((1 <<< bits.toUInt32) - 1 : UInt32).toNat = 2 ^ bits - 1 := by
    interval_cases bits <;> rfl
  rw [UInt32.toNat_and, hmask, Nat.and_two_pow_sub_one_eq_mod]

theorem base64UrlEncode_ne_nil {bytes : List UInt8} (h : bytes ≠ []) : base64UrlEncode bytes ≠ [] := by
  fun_cases base64UrlEncode bytes
  · exact absurd rfl h
  all_goals exact List.cons_ne_nil _ _

/-- Every nonempty list of bytes is read back. -/
theorem base64UrlDecode_base64UrlEncode {bytes : List UInt8} (h : bytes ≠ []) :
    base64UrlDecode (base64UrlEncode bytes) bytes.length = some bytes := by
  obtain ⟨accumulator, bits, hread, hbits, hzero⟩ := reads_base64UrlEncode bytes 0 []
  have hclear : accumulator &&& ((1 <<< bits.toUInt32) - 1) = 0 := by
    apply UInt32.toNat_inj.mp
    rw [toNat_mask _ (by omega), hzero]
    rfl
  simp [base64UrlDecode, base64UrlEncode_ne_nil h, hread, hclear]

/-! ### The decoder of documents

Signatures and public keys in documents are read by a second decoder. It keeps the bits that are
left over only, checks the length first, and refuses what it would not encode itself. -/

/-- The bits that are left over. -/
def leftover (accumulator : UInt32) (bits : ℕ) : UInt32 :=
  if bits = 0 then 0 else accumulator &&& ((1 <<< bits.toUInt32) - 1)

/-- The bytes of the digits, with the bits that are left over. -/
def documentDigits : List Char → UInt32 → ℕ → List UInt8 → Option (UInt32 × ℕ × List UInt8)
  | [], accumulator, bits, output => some (accumulator, bits, output)
  | c :: rest, accumulator, bits, output =>
    match base64Digit? c with
    | none => none
    | some digit =>
      let accumulator := (accumulator <<< 6) ||| digit.toUInt32
      if 8 ≤ bits + 6 then
        documentDigits rest (leftover accumulator (bits + 6 - 8)) (bits + 6 - 8)
          (output ++ [(accumulator >>> (bits + 6 - 8).toUInt32).toUInt8])
      else documentDigits rest (leftover accumulator (bits + 6)) (bits + 6) output

theorem toNat_leftover (accumulator : UInt32) {bits : ℕ} (h : bits ≤ 7) :
    (leftover accumulator bits).toNat = accumulator.toNat % 2 ^ bits := by
  unfold leftover
  split
  · next hbits => rw [hbits, Nat.pow_zero, Nat.mod_one]; rfl
  · exact toNat_mask accumulator h

theorem base64Digit?_lt {c : Char} {digit : UInt8} (h : base64Digit? c = some digit) :
    digit.toNat < 64 := by
  simp only [base64Digit?, Char.le_def, UInt32.le_iff_toNat_le] at h
  have hbounds : 'A'.val.toNat = 65 ∧ 'Z'.val.toNat = 90 ∧ 'a'.val.toNat = 97 ∧
      'z'.val.toNat = 122 ∧ '0'.val.toNat = 48 ∧ '9'.val.toNat = 57 := by decide
  split_ifs at h <;> cases h
  all_goals
    simp only [UInt8.toNat_add, UInt8.toNat_sub, Char.toUInt8, UInt32.toNat_toUInt8,
      UInt8.reduceToNat]
    omega

/-- Only the bits that are left over count for what is read next, so both decoders read the same. -/
theorem documentDigits_eq (text : List Char) (accumulator : UInt32) {bits : ℕ} (hbits : bits ≤ 7)
    (output : List UInt8) : documentDigits text (leftover accumulator bits) bits output =
      (base64Digits text accumulator bits output).map fun r => (leftover r.1 r.2.1, r.2) := by
  induction text generalizing accumulator bits output with
  | nil => rfl
  | cons c rest ih =>
    rw [documentDigits, base64Digits]
    cases hdigit : base64Digit? c with
    | none => rfl
    | some digit =>
      have hlt := base64Digit?_lt hdigit
      have hnew := toNat_accumulate digit accumulator hlt
      have hnew' := toNat_accumulate digit (leftover accumulator bits) hlt
      rw [toNat_leftover accumulator hbits] at hnew'
      dsimp only
      generalize (accumulator <<< 6) ||| digit.toUInt32 = a at hnew ⊢
      generalize (leftover accumulator bits <<< 6) ||| digit.toUInt32 = a' at hnew' ⊢
      have hsame : a'.toNat = a.toNat % 2 ^ (bits + 6) := by
        rw [hnew, hnew']
        interval_cases bits <;> omega
      have hleft : ∀ n ≤ 7, n ≤ bits + 6 → leftover a' n = leftover a n := by
        intro n hn hle
        apply UInt32.toNat_inj.mp
        rw [toNat_leftover _ hn, toNat_leftover _ hn, hsame]
        exact Nat.mod_mod_of_dvd _ (Nat.pow_dvd_pow 2 hle)
      split
      · have hbyte : (a' >>> (bits + 6 - 8).toUInt32).toUInt8 =
            (a >>> (bits + 6 - 8).toUInt32).toUInt8 := by
          apply UInt8.toNat_inj.mp
          rw [toNat_byte _ _ (by omega), toNat_byte _ _ (by omega), hsame]
          interval_cases bits <;> omega
        rw [hbyte, hleft _ (by omega) (by omega)]
        exact ih a (by omega) _
      · rw [hleft _ (by omega) (by omega)]
        exact ih a (by omega) _

end BlindPass.Fleet
