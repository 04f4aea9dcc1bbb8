import BlindPass.Fleet.Codec

/-!
# Digests, signatures and keys in text

Digests stand in documents in hexadecimal digits, keys and signatures as base64url text.
-/

namespace BlindPass.Fleet

open Transaction (bind_eq_ok)

/-- A byte in two hexadecimal digits. -/
def hexByte (b : UInt8) : List Char := [Canon.hexChar (b.toNat / 16), Canon.hexChar (b.toNat % 16)]

def hex (bytes : List UInt8) : String := String.ofList (bytes.flatMap hexByte)

def decodeBase64Url (value : String) : Except DocumentError (List UInt8) := do
  ensure (!value.isEmpty && value.utf8ByteSize % 4 != 1 && validBase64UrlText value)
    "base64url signature"
  let (accumulator, bits, output) ← orInvalid (documentDigits value.toList 0 0 [])
    "base64url signature"
  ensure (!(0 < bits && leftover accumulator bits != 0)) "base64url signature"
  ensure (base64UrlEncode output == value.toList) "non-canonical base64url signature"
  return output

/-! ### Reading back -/

theorem isBase64Url_of_mem : ∀ c ∈ base64Alphabet,
    Utf8.IsAscii c ∧ (c.isAlphanum || c == '_' || c == '-') = true := by
  decide

theorem length_base64UrlEncode_mod (bytes : List UInt8) :
    (base64UrlEncode bytes).length % 4 ≠ 1 := by
  fun_induction base64UrlEncode bytes with
  | case4 first second third rest ih =>
    simp only [List.length_cons]
    omega
  | _ => simp

/-- The decoders accept a text as bytes if and only if it is what the encoder writes for them. -/
theorem base64_exact (text : String) (bytes : List UInt8) :
    (∀ n, base64UrlDecode text.toList n = some bytes ↔
      n = bytes.length ∧ bytes ≠ [] ∧ base64UrlEncode bytes = text.toList) ∧
    (decodeBase64Url text = .ok bytes ↔ bytes ≠ [] ∧ base64UrlEncode bytes = text.toList) := by
  have hne : text.toList ≠ [] → base64UrlEncode bytes = text.toList → bytes ≠ [] := by
    rintro hne hencode rfl
    exact hne hencode.symm
  refine ⟨fun n => ⟨fun h => ?_, ?_⟩, fun h => ?_, ?_⟩
  · unfold base64UrlDecode at h
    split at h
    · cases h
    next htext =>
    split at h
    · cases h
    split at h
    · cases h
    split at h
    · next hok =>
      cases h
      exact ⟨hok.1.symm, hne (by simpa using htext) hok.2, hok.2⟩
    · cases h
  · rintro ⟨rfl, hne, hencode⟩
    rw [← hencode]
    exact base64UrlDecode_base64UrlEncode hne
  · unfold decodeBase64Url at h
    obtain ⟨⟨⟩, htext, h⟩ := bind_eq_ok.mp h
    obtain ⟨⟨accumulator, bits, output⟩, -, h⟩ := bind_eq_ok.mp h
    obtain ⟨-, -, h⟩ := bind_eq_ok.mp h
    obtain ⟨⟨⟩, hsame, h⟩ := bind_eq_ok.mp h
    obtain rfl := Except.ok.inj h
    have hencode := beq_iff_eq.mp (ensure_eq_ok.mp hsame)
    rw [ensure_eq_ok, Bool.and_eq_true, Bool.and_eq_true] at htext
    exact ⟨hne (by simpa using htext.1.1) hencode, hencode⟩
  · rintro ⟨hbytes, hencode⟩
    obtain ⟨accumulator, bits, hread, hbits, hzero⟩ := reads_base64UrlEncode bytes 0 []
    have hdigits : documentDigits text.toList 0 0 [] = _ :=
      documentDigits_eq text.toList 0 (Nat.zero_le 7) []
    rw [← hencode, hread] at hdigits
    have hclear : leftover (leftover accumulator bits) bits = 0 := by
      apply UInt32.toNat_inj.mp
      rw [toNat_leftover _ (by omega), toNat_leftover _ (by omega), hzero]
      rfl
    have hvalid : validBase64UrlText text = true := by
      rw [validBase64UrlText, ← hencode, List.all_eq_true]
      exact fun c hc => (isBase64Url_of_mem c (mem_base64UrlEncode hc)).2
    have hlength : (text.utf8ByteSize % 4 != 1) = true := by
      rw [Utf8.utf8ByteSize_eq, ← hencode, Utf8.length_encode_of_isAscii fun c hc =>
        (isBase64Url_of_mem c (mem_base64UrlEncode hc)).1]
      simpa using length_base64UrlEncode_mod bytes
    have htext : text.isEmpty = false := by
      rw [Bool.eq_false_iff, ne_eq, String.isEmpty_iff]
      rintro rfl
      exact base64UrlEncode_ne_nil hbytes hencode
    rw [decodeBase64Url, htext, hlength, hvalid, ← hencode, hdigits]
    refine bind_eq_ok.mpr ⟨(), rfl, bind_eq_ok.mpr ⟨_, rfl, ?_⟩⟩
    refine bind_eq_ok.mpr ⟨(), ensure_eq_ok.mpr ?_, bind_eq_ok.mpr ⟨(), ensure_eq_ok.mpr ?_, rfl⟩⟩
    · simp [hclear]
    · simp

end BlindPass.Fleet
