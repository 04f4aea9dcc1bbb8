import Mathlib

/-!
# Unambiguous concatenation

A byte string that is put together from parts can be taken apart again in one way only, if each
part ends where its own bytes say so: a tag ends with the first byte of a kind that it does not
hold, and a framed field begins with its length.
-/

namespace BlindPass.Framing

/-- What ends with the first separator is recovered, with the rest. -/
theorem append_cons_inj {α : Type} {sep : α} {tag tag' rest rest' : List α} (htag : sep ∉ tag)
    (htag' : sep ∉ tag') (h : tag ++ sep :: rest = tag' ++ sep :: rest') :
    tag = tag' ∧ rest = rest' := by
  induction tag generalizing tag' with
  | nil =>
    cases tag' with
    | nil => exact ⟨rfl, (List.cons.inj h).2⟩
    | cons => exact absurd ((List.cons.inj h).1 ▸ (.head _)) htag'
  | cons a tag ih =>
    cases tag' with
    | nil => exact absurd ((List.cons.inj h).1 ▸ (.head _)) htag
    | cons =>
      obtain ⟨rfl, htail⟩ := List.cons.inj h
      obtain ⟨rfl, hrest⟩ := ih (fun hmem => htag (.tail a hmem))
        (fun hmem => htag' (.tail a hmem)) htail
      exact ⟨rfl, hrest⟩

/-- A number in four bytes, the highest first. -/
def be32 (n : ℕ) : List UInt8 :=
  [UInt8.ofNat (n / 2 ^ 24), UInt8.ofNat (n / 2 ^ 16), UInt8.ofNat (n / 2 ^ 8), UInt8.ofNat n]

theorem be32_inj {n m : ℕ} (hn : n < 2 ^ 32) (hm : m < 2 ^ 32) (h : be32 n = be32 m) : n = m := by
  have hbyte : ∀ a b : ℕ, UInt8.ofNat a = UInt8.ofNat b → a % 256 = b % 256 := by
    intro a b hab
    have := congrArg UInt8.toNat hab
    rwa [UInt8.toNat_ofNat', UInt8.toNat_ofNat'] at this
  unfold be32 at h
  simp only [List.cons.injEq, and_true] at h
  have h₃ := hbyte _ _ h.1
  have h₂ := hbyte _ _ h.2.1
  have h₁ := hbyte _ _ h.2.2.1
  have h₀ := hbyte _ _ h.2.2.2
  omega

/-- A field behind its length. -/
def frame (field : List UInt8) : List UInt8 := be32 field.length ++ field

/-- A framed field is recovered, with the rest. -/
theorem frame_append_inj {field field' rest rest' : List UInt8} (hlen : field.length < 2 ^ 32)
    (hlen' : field'.length < 2 ^ 32) (h : frame field ++ rest = frame field' ++ rest') :
    field = field' ∧ rest = rest' := by
  unfold frame at h
  rw [List.append_assoc, List.append_assoc] at h
  obtain ⟨hlength, h⟩ := List.append_inj h rfl
  exact List.append_inj h (be32_inj hlen hlen' hlength)

end BlindPass.Framing
