import BlindPass.Canon.Parser

/-!
# What the parser accepts

The parser looks at bytes and the grammar at characters. Each function of the parser is related
to its part of the grammar twice: what it reads from the bytes of a text is derived by the
grammar (soundness), and it reads what the grammar derives (completeness). A number ends where
no digit follows, so completeness says what may come after the text that is read.
-/

namespace BlindPass.Canon

open Fleet (Value maxSafeInteger)
open Utf8 (encode IsAscii)
open Transaction (bind_eq_ok map_eq_ok)
open Utf8 (encode_cons_of_isAscii ofUInt8_toUInt8 tail_encode)

theorem le_iff_toNat_le {a b : Char} : a ≤ b ↔ a.toNat ≤ b.toNat := UInt32.le_iff_toNat_le

/-! ### Digits of the grammar -/

variable {n : ℕ} {quad blank body : List Char} {v : Value}

theorem HexDigit.isAscii {c : Char} (h : HexDigit c n) : IsAscii c := by
  have hle : c ≤ 'f' := by
    cases h with
    | digit hc =>
      simp only [Char.isDigit, Bool.and_eq_true, decide_eq_true_eq] at hc
      exact Char.le_trans (b := '9') hc.2 (by decide)
    | lower _ hf => exact hf
    | upper _ hf => exact Char.le_trans hf (by decide)
  exact (UInt32.le_iff_toNat_le.mp hle).trans_lt (by decide)

theorem HexQuad.lt (h : HexQuad quad n) : n < 0x10000 := by
  have hdigit : ∀ {c : Char} {w : ℕ}, HexDigit c w → w < 16 := by
    intro c w h
    cases h with
    | digit hc =>
      simp only [Char.isDigit, Bool.and_eq_true, decide_eq_true_eq] at hc
      have : c.toNat ≤ 57 := UInt32.le_iff_toNat_le.mp hc.2
      omega
    | lower _ hf =>
      have : c.toNat ≤ 102 := UInt32.le_iff_toNat_le.mp hf
      omega
    | upper _ hf =>
      have : c.toNat ≤ 70 := UInt32.le_iff_toNat_le.mp hf
      omega
  cases h with
  | mk ha hb hc hd =>
    have := hdigit ha
    have := hdigit hb
    have := hdigit hc
    have := hdigit hd
    omega

theorem IsBlank.append {blank' : List Char} (h : IsBlank blank) (h' : IsBlank blank') :
    IsBlank (blank ++ blank') := by
  intro c hc
  rcases List.mem_append.mp hc with hc | hc
  · exact h c hc
  · exact h' c hc

/-- White space may stand before the first item. -/
theorem ItemsText.prepend {text : List Char} {items : List Value} (h : ItemsText text items)
    (hblank : IsBlank blank) : ItemsText (blank ++ text) items := by
  cases h with
  | one hbefore hbody hafter =>
    rw [← List.append_assoc, ← List.append_assoc]
    exact .one (hblank.append hbefore) hbody hafter
  | more hbefore hbody hafter hrest =>
    rw [← List.append_assoc, ← List.append_assoc, ← List.append_assoc]
    exact .more (hblank.append hbefore) hbody hafter hrest

/-- White space may stand before the first field. -/
theorem FieldsText.prepend {text : List Char} {fields : List (String × Value)}
    (h : FieldsText text fields) (hblank : IsBlank blank) : FieldsText (blank ++ text) fields := by
  cases h with
  | one hbefore hname hbetween hbetween' hbody hafter =>
    simp only [← List.append_assoc]
    exact .one (hblank.append hbefore) hname hbetween hbetween' hbody hafter
  | more hbefore hname hbetween hbetween' hbody hafter hrest =>
    simp only [← List.append_assoc]
    exact .more (hblank.append hbefore) hname hbetween hbetween' hbody hafter hrest

theorem StringText.head {name : List Char} {key : String} (h : StringText name key) :
    ∃ rest, name = '"' :: rest := by
  cases h with
  | mk => exact ⟨_, rfl⟩

theorem NumberText.head {num : List Char} (h : NumberText num v) :
    ∃ c rest, num = c :: rest ∧ (c = '-' ∨ c.isDigit = true) := by
  cases h with
  | unsigned hds =>
    cases hds with
    | zero => exact ⟨_, _, rfl, .inr (by decide)⟩
    | nonzero hd => exact ⟨_, _, rfl, .inr hd⟩
  | negative => exact ⟨_, _, rfl, .inl rfl⟩

/-- A value does not start like the end of an array. -/
theorem ValueText.head (h : ValueText body v) :
    ∃ c rest, body = c :: rest ∧ ¬ IsSpace c ∧ c ≠ ']' := by
  cases h with
  | number hnum =>
    obtain ⟨c, rest, rfl, hc⟩ := hnum.head
    refine ⟨c, rest, rfl, ?_, ?_⟩
    · rintro (rfl | rfl | rfl | rfl) <;> exact absurd hc (by decide)
    · rintro rfl
      exact absurd hc (by decide)
  | string hs =>
    obtain ⟨rest, rfl⟩ := hs.head
    exact ⟨_, _, rfl, by decide, by decide⟩
  | _ => exact ⟨_, _, rfl, by decide, by decide⟩

/-- White space before the first item may be taken off. -/
theorem ItemsText.split {text : List Char} {items : List Value} (h : ItemsText text items) :
    ∃ blank body c rest, text = blank ++ body ∧ IsBlank blank ∧ ItemsText body items ∧
      body = c :: rest ∧ ¬ IsSpace c ∧ c ≠ ']' := by
  cases h with
  | @one before text after v hbefore htext hafter =>
    obtain ⟨c, rest, rfl, hc⟩ := htext.head
    exact ⟨before, (c :: rest) ++ after, c, rest ++ after, by simp, hbefore,
      .one isBlank_nil htext hafter, rfl, hc⟩
  | @more before text after v more items hbefore htext hafter hmore =>
    obtain ⟨c, rest, rfl, hc⟩ := htext.head
    exact ⟨before, (c :: rest) ++ after ++ ',' :: more, c, rest ++ after ++ ',' :: more, by simp,
      hbefore, .more isBlank_nil htext hafter hmore, rfl, hc⟩

/-- White space before the first field may be taken off. -/
theorem FieldsText.split {text : List Char} {fields : List (String × Value)}
    (h : FieldsText text fields) :
    ∃ blank body rest, text = blank ++ body ∧ IsBlank blank ∧ FieldsText body fields ∧
      body = '"' :: rest := by
  cases h with
  | @one before name between between' text after key v hbefore hname hbetween hbetween' htext hafter =>
    obtain ⟨rest, rfl⟩ := hname.head
    exact ⟨before, ('"' :: rest) ++ between ++ ':' :: between' ++ text ++ after, _, by simp, hbefore,
      .one isBlank_nil hname hbetween hbetween' htext hafter, rfl⟩
  | @more before name between between' text after key v more fields hbefore hname hbetween hbetween'
      htext hafter hmore =>
    obtain ⟨rest, rfl⟩ := hname.head
    exact ⟨before, ('"' :: rest) ++ between ++ ':' :: between' ++ text ++ after ++ ',' :: more, _,
      by simp, hbefore, .more isBlank_nil hname hbetween hbetween' htext hafter hmore, rfl⟩

theorem CharText.length_pos {c : Char} (h : CharText body c) : 0 < body.length := by
  cases h <;> simp

namespace Parser

variable {text rest : List Char} {bytes : List UInt8} {c : Char}

/-! ### Bytes and characters -/

theorem peek_eq_some (hc : IsAscii c) : peek (encode text) = some c ↔ ∃ rest, text = c :: rest :=
  Utf8.head_encode hc

theorem peek_cons (hc : IsAscii c) : peek (encode (c :: rest)) = some c :=
  (peek_eq_some hc).mpr ⟨rest, rfl⟩

theorem any_peek {p : Char → Bool} (hp : ∀ c, p c = true → IsAscii c) :
    (peek (encode text)).any p = text.head?.any p := by
  cases text with
  | nil => rfl
  | cons c rest =>
    obtain ⟨b, bytes, hbytes, hbyte, -⟩ := Utf8.head_encode_of_ascii c rest hp
    rw [hbytes]
    exact hbyte

theorem consume_eq_some (hc : IsAscii c) :
    consume c (encode text) = some bytes ↔ ∃ rest, text = c :: rest ∧ bytes = encode rest := by
  unfold consume
  constructor
  · intro h
    split at h
    · next hpeek =>
      obtain ⟨rest, rfl⟩ := (peek_eq_some hc).mp hpeek
      refine ⟨rest, rfl, ?_⟩
      rw [← Option.some.inj h, tail_encode hc]
    · cases h
  · rintro ⟨rest, rfl, rfl⟩
    rw [if_pos (peek_cons hc), tail_encode hc]

theorem consume_cons (hc : IsAscii c) : consume c (encode (c :: rest)) = some (encode rest) :=
  (consume_eq_some hc).mpr ⟨rest, rfl, rfl⟩

theorem consume_eq_none (hc : IsAscii c) (h : text.head? ≠ some c) :
    consume c (encode text) = none := by
  rw [Option.eq_none_iff_forall_ne_some]
  intro bytes hbytes
  obtain ⟨rest, rfl, -⟩ := (consume_eq_some hc).mp hbytes
  exact h rfl

theorem consume_other {d : Char} (hc : IsAscii c) (hd : d ≠ c) :
    consume c (encode (d :: rest)) = none :=
  consume_eq_none hc fun h => hd (Option.some.inj h)

theorem isAscii_of_isSpace (h : IsSpace c) : IsAscii c := by
  rcases h with rfl | rfl | rfl | rfl <;> decide

theorem whitespace_encode :
    whitespace (encode text) = encode (text.dropWhile fun c => decide (IsSpace c)) :=
  Utf8.dropWhile_encode fun _ h => isAscii_of_isSpace (of_decide_eq_true h)

/-- The text does not start with white space. -/
def Starts (text : List Char) : Prop := ∀ c, text.head? = some c → ¬ IsSpace c

theorem whitespace_append (hblank : IsBlank blank) (hrest : Starts rest) :
    whitespace (encode (blank ++ rest)) = encode rest := by
  rw [whitespace_encode, List.dropWhile_append_of_pos fun c hc => decide_eq_true (hblank c hc)]
  cases rest with
  | nil => rfl
  | cons c => rw [List.dropWhile_cons_of_neg (by simpa using hrest c rfl)]

theorem starts_append {tail : List Char} (htext : text = c :: tail) (hc : ¬ IsSpace c) :
    Starts (text ++ rest) := by
  subst htext
  intro d hd
  rwa [← Option.some.inj hd]

theorem whitespace_cons (hblank : IsBlank blank) (hc : ¬ IsSpace c) :
    whitespace (encode (blank ++ c :: rest)) = encode (c :: rest) :=
  whitespace_append hblank (show Starts ([c] ++ rest) from starts_append rfl hc)

/-- White space is cut off, and what is left starts otherwise. -/
theorem whitespace_split (text : List Char) :
    ∃ blank rest, text = blank ++ rest ∧ IsBlank blank ∧ Starts rest ∧
      whitespace (encode text) = encode rest := by
  refine ⟨_, _, (List.takeWhile_append_dropWhile (p := fun c => decide (IsSpace c))).symm, ?_, ?_,
    whitespace_encode⟩
  · intro c hc
    exact of_decide_eq_true (List.all_eq_true.mp List.all_takeWhile c hc)
  · intro c hc hspace
    have hnot := List.head?_dropWhile_not (fun c => decide (IsSpace c)) text
    rw [hc] at hnot
    simp [hspace] at hnot

theorem literal_eq_ok {lit : List Char} (hlit : ∀ c ∈ lit, IsAscii c) :
    literal lit (encode text) = .ok bytes ↔ ∃ rest, text = lit ++ rest ∧ bytes = encode rest := by
  unfold literal
  constructor
  · intro h
    split at h
    · next hprefix =>
      obtain ⟨tail, htail⟩ := hprefix
      have hbytes : bytes = tail := by
        rw [← Except.ok.inj h, ← htail, List.drop_left]
      subst hbytes
      clear h
      induction lit generalizing text with
      | nil => exact ⟨text, rfl, htail⟩
      | cons a lit ih =>
        have ha := hlit a (.head _)
        rw [encode_cons_of_isAscii ha, List.cons_append] at htail
        obtain ⟨rest, hrest, hbytes⟩ := Utf8.encode_eq_cons htail.symm (by
          rw [ofUInt8_toUInt8 ha]
          exact ha)
        rw [ofUInt8_toUInt8 ha] at hrest
        obtain ⟨after, rfl, hafter⟩ := ih (fun c hc => hlit c (.tail a hc)) hbytes
        exact ⟨after, hrest, hafter⟩
    · cases h
  · rintro ⟨rest, rfl, rfl⟩
    rw [Utf8.encode_append, if_pos (List.prefix_append _ _), List.drop_left]

theorem literal_append {lit : List Char} (hlit : ∀ c ∈ lit, IsAscii c) :
    literal lit (encode (lit ++ rest)) = .ok (encode rest) :=
  (literal_eq_ok hlit).mpr ⟨rest, rfl, rfl⟩

/-! ### Numbers -/

theorem isAscii_of_isDigit (h : c.isDigit = true) : IsAscii c := by
  have hle : c.toNat ≤ 57 := by
    simp only [Char.isDigit, Bool.and_eq_true, decide_eq_true_eq] at h
    exact UInt32.le_iff_toNat_le.mp h.2
  exact hle.trans_lt (by decide)

/-- A number may end before this text. -/
def EndsNumber (text : List Char) : Prop :=
  ∀ c, text.head? = some c → c.isDigit = false ∧ c ≠ '.' ∧ c ≠ 'e' ∧ c ≠ 'E'

variable {ds : List Char} {rounds k : ℕ}

theorem parseDigits_encode {bound : ℕ} (hds : ∀ c ∈ ds, c.isDigit = true) :
    parseDigits bound (encode ds) =
      if Nat.ofDigitChars 10 ds 0 ≤ bound then some (Nat.ofDigitChars 10 ds 0) else none := by
  simp only [parseDigits, Utf8.map_encode fun c hc => isAscii_of_isDigit (hds c hc)]

theorem digits_sound {raw : List UInt8} (h : digits (encode text) = .ok (raw, bytes)) :
    ∃ ds rest, text = ds ++ rest ∧ IntText ds ∧ raw = encode ds ∧ bytes = encode rest := by
  unfold digits at h
  split at h
  · next hpeek =>
    obtain ⟨rest, rfl⟩ := (peek_eq_some (by decide)).mp hpeek
    split at h
    · cases h
    cases h
    refine ⟨['0'], rest, rfl, .zero, ?_, tail_encode (by decide)⟩
    rw [encode_cons_of_isAscii (by decide)]
    rfl
  · next c hne hpeek =>
    split at h
    · next hdigit =>
      obtain ⟨rest, rfl⟩ := (peek_eq_some (isAscii_of_isDigit hdigit)).mp hpeek
      cases h
      have hascii : ∀ c : Char, c.isDigit = true → IsAscii c := fun _ => isAscii_of_isDigit
      refine ⟨_, _, (List.takeWhile_append_dropWhile (p := Char.isDigit)).symm, ?_,
        Utf8.takeWhile_encode hascii, Utf8.dropWhile_encode hascii⟩
      rw [List.takeWhile_cons_of_pos hdigit]
      refine .nonzero hdigit ?_ fun c hc => List.all_eq_true.mp List.all_takeWhile c hc
      rintro rfl
      exact hne rfl
    · cases h
  · cases h

theorem digits_complete (hds : IntText ds) (hrest : EndsNumber rest) :
    digits (encode (ds ++ rest)) = .ok (encode ds, encode rest) := by
  have hend : ∀ c, rest.head? = some c → ¬ c.isDigit = true := fun c hc => by
    simp [(hrest c hc).1]
  have hascii : ∀ c : Char, c.isDigit = true → IsAscii c := fun _ => isAscii_of_isDigit
  cases hds with
  | zero =>
    unfold digits
    rw [List.singleton_append, peek_cons (by decide), tail_encode (by decide),
      any_peek hascii]
    have hnone : rest.head?.any Char.isDigit = false := by
      cases hhead : rest.head? with
      | none => rfl
      | some c => simpa using hend c hhead
    rw [hnone, encode_cons_of_isAscii (by decide)]
    rfl
  | @nonzero d ds hd hne hds =>
    have hall : ∀ c ∈ d :: ds, c.isDigit = true := by
      intro c hc
      rcases List.mem_cons.mp hc with rfl | hc
      · exact hd
      · exact hds c hc
    have htake : (d :: (ds ++ rest)).takeWhile Char.isDigit = d :: ds := by
      rw [← List.cons_append, List.takeWhile_append_of_pos hall]
      cases rest with
      | nil => exact List.append_nil _
      | cons c => rw [List.takeWhile_cons_of_neg (hend c rfl), List.append_nil]
    have hdrop : (d :: (ds ++ rest)).dropWhile Char.isDigit = rest := by
      rw [← List.cons_append, List.dropWhile_append_of_pos hall]
      cases rest with
      | nil => rfl
      | cons c => rw [List.dropWhile_cons_of_neg (hend c rfl)]
    unfold digits
    rw [List.cons_append, peek_cons (hascii d hd)]
    split
    · next heq => exact absurd (Option.some.inj heq) hne
    · next c _ heq =>
      cases heq
      rw [if_pos hd]
      have htaken : (encode (d :: (ds ++ rest))).takeWhile isAsciiDigit = _ :=
        Utf8.takeWhile_encode hascii
      have hdropped : (encode (d :: (ds ++ rest))).dropWhile isAsciiDigit = _ :=
        Utf8.dropWhile_encode hascii
      rw [htaken, hdropped, htake, hdrop]
    · next heq => cases heq

/-- The bounds of the machine types lie beyond the safe range. -/
theorem safeNumber_encode {negative : Bool} (hds : ∀ c ∈ ds, c.isDigit = true) :
    safeNumber negative (encode ds) =
      if Nat.ofDigitChars 10 ds 0 ≤ maxSafeInteger then
        .ok (if negative then .integer (-(Nat.ofDigitChars 10 ds 0 : ℤ))
          else .unsigned (Nat.ofDigitChars 10 ds 0))
      else .error .invalidNumber := by
  have hsafe : maxSafeInteger ≤ 2 ^ 63 ∧ maxSafeInteger ≤ 2 ^ 64 - 1 := by decide
  unfold safeNumber
  rw [parseDigits_encode hds, parseDigits_encode hds]
  generalize Nat.ofDigitChars 10 ds 0 = n
  by_cases hn : n ≤ maxSafeInteger
  · rw [if_pos hn, if_pos (hn.trans hsafe.1), if_pos (hn.trans hsafe.2)]
    cases negative <;> simp [not_lt.mpr hn]
  rw [if_neg hn]
  have hlt := not_le.mp hn
  cases negative
  · by_cases hbound : n ≤ 2 ^ 64 - 1
    · rw [if_pos hbound]
      simp [hlt]
    · rw [if_neg hbound]
      rfl
  · by_cases hbound : n ≤ 2 ^ 63
    · rw [if_pos hbound]
      simp [hlt]
    · rw [if_neg hbound]
      rfl

theorem number_sound (h : number (encode text) = .ok (v, bytes)) :
    ∃ num rest, text = num ++ rest ∧ NumberText num v ∧ bytes = encode rest := by
  unfold number at h
  obtain ⟨⟨raw, after⟩, hdigits, h⟩ := bind_eq_ok.mp h
  dsimp only at h
  split at h
  · cases h
  obtain ⟨v', hv, h⟩ := bind_eq_ok.mp h
  cases h
  cases hminus : consume '-' (encode text) with
  | none =>
    rw [hminus] at hdigits hv
    obtain ⟨ds, rest, rfl, hds, rfl, rfl⟩ := digits_sound hdigits
    refine ⟨ds, rest, rfl, ?_, rfl⟩
    rw [safeNumber_encode hds.isDigit] at hv
    split at hv
    · next hsafe =>
      rw [← Except.ok.inj hv]
      exact .unsigned hds hsafe
    · cases hv
  | some =>
    obtain ⟨unsigned, rfl, rfl⟩ := (consume_eq_some (by decide)).mp hminus
    rw [hminus] at hdigits hv
    obtain ⟨ds, rest, rfl, hds, rfl, rfl⟩ := digits_sound hdigits
    refine ⟨'-' :: ds, rest, rfl, ?_, rfl⟩
    rw [safeNumber_encode hds.isDigit] at hv
    split at hv
    · next hsafe =>
      rw [← Except.ok.inj hv]
      exact .negative hds hsafe
    · cases hv

theorem number_complete {num : List Char} (hnum : NumberText num v) (hrest : EndsNumber rest) :
    number (encode (num ++ rest)) = .ok (v, encode rest) := by
  have hend : ((peek (encode rest)).any fun c => c = '.' || c = 'e' || c = 'E') = false := by
    rw [any_peek fun c hc => ?_]
    · cases hhead : rest.head? with
      | none => rfl
      | some c =>
        obtain ⟨-, hdot, he, hE⟩ := hrest c hhead
        simp [hdot, he, hE]
    · simp only [Bool.or_eq_true, decide_eq_true_eq] at hc
      rcases hc with (rfl | rfl) | rfl <;> decide
  cases hnum with
  | unsigned hds hsafe =>
    have hminus : consume '-' (encode (num ++ rest)) = none := by
      refine consume_eq_none (by decide) ?_
      cases hds with
      | zero => simp
      | nonzero hd =>
        intro h
        cases h
        exact absurd hd (by decide)
    simp only [number, hminus, Option.getD_none, digits_complete hds hrest, bind, Except.bind, hend,
      Option.isSome_none, safeNumber_encode hds.isDigit, if_pos hsafe]
    rfl
  | @negative ds hds hsafe =>
    simp only [number, List.cons_append, consume_cons (c := '-') (by decide), Option.getD_some,
      digits_complete hds hrest, bind, Except.bind, hend, Option.isSome_some,
      safeNumber_encode hds.isDigit, if_pos hsafe]
    rfl

/-! ### Strings -/

theorem hexDigit?_eq_some : hexDigit? c = some n ↔ HexDigit c n := by
  have hdigit : ('0' ≤ c ∧ c ≤ '9') ↔ c.isDigit = true := by
    simp [Char.isDigit, Char.le_def]
  unfold hexDigit?
  constructor
  · intro h
    split at h
    · next hc =>
      cases h
      exact .digit (hdigit.mp hc)
    split at h
    · next hc =>
      cases h
      exact .lower hc.1 hc.2
    split at h
    · next hc =>
      cases h
      exact .upper hc.1 hc.2
    · cases h
  · intro h
    cases h with
    | digit hc => rw [if_pos (hdigit.mpr hc)]; rfl
    | lower ha hf =>
      rw [if_neg, if_pos ⟨ha, hf⟩]
      · rfl
      · exact fun h => absurd (Char.le_trans ha h.2) (by decide)
    | upper ha hf =>
      rw [if_neg, if_neg, if_pos ⟨ha, hf⟩]
      · rfl
      · exact fun h => absurd (Char.le_trans h.1 hf) (by decide)
      · exact fun h => absurd (Char.le_trans ha h.2) (by decide)

theorem hexQuad_sound (h : hexQuad (encode text) = .ok (n, bytes)) :
    ∃ quad rest, text = quad ++ rest ∧ HexQuad quad n ∧ bytes = encode rest := by
  -- a hexadecimal digit is a character of its own
  have hstep : ∀ {text : List Char} {b : UInt8} {more : List UInt8} {w : ℕ},
      encode text = b :: more → hexDigit? (Char.ofUInt8 b) = some w →
      ∃ c rest, text = c :: rest ∧ HexDigit c w ∧ more = encode rest := by
    intro text b more w htext hw
    have hdigit := hexDigit?_eq_some.mp hw
    obtain ⟨rest, hrest, hmore⟩ := Utf8.encode_eq_cons htext hdigit.isAscii
    exact ⟨_, rest, hrest, hdigit, hmore⟩
  unfold hexQuad at h
  split at h
  · cases h
  next hlength =>
  generalize hbytes : encode text = all at h hlength
  split at h
  · cases h
  next value hvalue =>
  cases h
  obtain _ | ⟨b₁, _ | ⟨b₂, _ | ⟨b₃, _ | ⟨b₄, more⟩⟩⟩⟩ := all
  case cons.cons.cons.cons =>
    simp only [List.take_succ_cons, List.take_zero, hexValue, Option.bind_eq_some_iff,
      Option.some.injEq] at hvalue
    obtain ⟨w, hw, x, hx, y, hy, z, hz, rfl⟩ := hvalue
    obtain ⟨a, rest, rfl, ha, hmore⟩ := hstep hbytes hw
    obtain ⟨b, rest, rfl, hb, hmore⟩ := hstep hmore.symm hx
    obtain ⟨c, rest, rfl, hc, hmore⟩ := hstep hmore.symm hy
    obtain ⟨d, rest, rfl, hd, hmore⟩ := hstep hmore.symm hz
    refine ⟨[a, b, c, d], rest, rfl, ?_, hmore⟩
    rw [Nat.zero_mul, Nat.zero_add]
    exact .mk ha hb hc hd
  all_goals simp at hlength

theorem hexQuad_complete (h : HexQuad quad n) :
    hexQuad (encode (quad ++ rest)) = .ok (n, encode rest) := by
  cases h with
  | @mk a b c d w x y z ha hb hc hd =>
    simp only [List.cons_append, List.nil_append, encode_cons_of_isAscii ha.isAscii,
      encode_cons_of_isAscii hb.isAscii, encode_cons_of_isAscii hc.isAscii,
      encode_cons_of_isAscii hd.isAscii, hexQuad, List.length_cons, List.take_succ_cons,
      List.take_zero, hexValue, ofUInt8_toUInt8 ha.isAscii, ofUInt8_toUInt8 hb.isAscii,
      ofUInt8_toUInt8 hc.isAscii, ofUInt8_toUInt8 hd.isAscii,
      hexDigit?_eq_some.mpr ha, hexDigit?_eq_some.mpr hb, hexDigit?_eq_some.mpr hc,
      hexDigit?_eq_some.mpr hd, Option.bind_some, Nat.zero_mul, Nat.zero_add]
    rw [if_neg (by omega)]
    rfl

theorem fromU32_of_valid (h : n.isValidChar) : fromU32 n = some (Char.ofNat n) := if_pos h

theorem fromU32_eq_some (h : fromU32 n = some c) : c = Char.ofNat n := by
  unfold fromU32 at h
  split at h
  · exact (Option.some.inj h).symm
  · cases h

theorem unicodeEscape_sound (h : unicodeEscape (encode text) = .ok (c, bytes)) :
    ∃ body rest, text = body ++ rest ∧ CharText ('\\' :: 'u' :: body) c ∧ bytes = encode rest := by
  unfold unicodeEscape at h
  obtain ⟨⟨first, after⟩, hfirst, h⟩ := bind_eq_ok.mp h
  obtain ⟨quad, rest, rfl, hquad, rfl⟩ := hexQuad_sound hfirst
  dsimp only at h
  split at h
  · next hhigh =>
    unfold lowSurrogate at h
    split at h
    · cases h
    next afterU hU =>
    obtain ⟨afterSlash, hslash, hU⟩ := Option.bind_eq_some_iff.mp hU
    obtain ⟨rest, rfl, rfl⟩ := (consume_eq_some (by decide)).mp hslash
    obtain ⟨rest, rfl, rfl⟩ := (consume_eq_some (by decide)).mp hU
    obtain ⟨⟨low, after⟩, hlow, h⟩ := bind_eq_ok.mp h
    obtain ⟨quad', rest, rfl, hquad', rfl⟩ := hexQuad_sound hlow
    dsimp only at h
    split at h
    · next hrange =>
      split at h
      · cases h
      next c' hc =>
      cases h
      rw [fromU32_eq_some hc]
      refine ⟨quad ++ '\\' :: 'u' :: quad', rest, by simp, ?_, rfl⟩
      exact .surrogates hquad hquad' hhigh.1 hhigh.2 hrange.1 hrange.2
    · cases h
  split at h
  · cases h
  next hhigh hlow =>
  split at h
  · cases h
  next c' hc =>
  cases h
  obtain rfl := fromU32_eq_some hc
  exact ⟨quad, rest, rfl, .unicode hquad (by omega), rfl⟩

theorem escaped_sound (h : escaped (encode text) = .ok (c, bytes)) :
    ∃ body rest, text = body ++ rest ∧ CharText ('\\' :: body) c ∧ bytes = encode rest := by
  -- the simple escapes are those of the table
  have hsimple : ∀ e c', IsAscii e → (e, c') ∈ escapes → peek (encode text) = some e →
      (.ok (c', (encode text).tail) : Except CanonicalError _) = .ok (c, bytes) →
      ∃ body rest, text = body ++ rest ∧ CharText ('\\' :: body) c ∧ bytes = encode rest := by
    intro e c' he hmem hpeek heq
    obtain ⟨rest, rfl⟩ := (peek_eq_some he).mp hpeek
    cases heq
    exact ⟨[e], rest, rfl, .escape hmem, tail_encode he⟩
  unfold escaped at h
  split at h
  case h_1 => cases h
  case h_10 hpeek =>
    obtain ⟨rest, rfl⟩ := (peek_eq_some (by decide)).mp hpeek
    rw [tail_encode (by decide)] at h
    obtain ⟨body, rest, rfl, hchar, hbytes⟩ := unicodeEscape_sound h
    exact ⟨'u' :: body, rest, rfl, hchar, hbytes⟩
  case h_11 => cases h
  all_goals
    next hpeek => exact hsimple _ _ (by decide) (by decide) hpeek h

theorem plain_of_not_isAscii (h : ¬ IsAscii c) : CharText [c] c := by
  refine .plain (le_iff_toNat_le.mpr ?_) ?_ ?_
  · have : 128 ≤ c.toNat := not_lt.mp h
    exact Nat.le_trans (by decide) this
  all_goals
    rintro rfl
    exact h (by decide)

theorem drop_encode : (encode (c :: rest)).drop c.utf8Size = encode rest := by
  rw [Utf8.encode_cons, ← String.length_utf8EncodeChar, List.drop_left]

theorem character_sound {byte : Char} (hpeek : peek (encode text) = some byte) (hquote : byte ≠ '"')
    (h : character byte (encode text) = .ok (c, bytes)) :
    ∃ body rest, text = body ++ rest ∧ CharText body c ∧ bytes = encode rest := by
  unfold character at h
  split at h
  · next hslash =>
    subst hslash
    obtain ⟨rest, rfl⟩ := (peek_eq_some (by decide)).mp hpeek
    rw [tail_encode (by decide)] at h
    obtain ⟨body, rest, rfl, hchar, hbytes⟩ := escaped_sound h
    exact ⟨'\\' :: body, rest, rfl, hchar, hbytes⟩
  · next hslash =>
    split at h
    · cases h
    next hcontrol =>
    split at h
    · next hascii =>
      have hbyte : IsAscii byte := (UInt32.le_iff_toNat_le.mp hascii).trans_lt (by decide)
      obtain ⟨rest, rfl⟩ := (peek_eq_some hbyte).mp hpeek
      obtain ⟨rfl, rfl⟩ := Prod.mk.inj (Except.ok.inj h)
      refine ⟨[byte], rest, rfl, .plain ?_ hquote hslash, tail_encode hbyte⟩
      rw [le_iff_toNat_le] at hcontrol ⊢
      exact not_le.mp hcontrol
    · next hascii =>
      split at h
      · cases h
      next c' hc =>
      cases h
      cases text with
      | nil => cases hpeek
      | cons c₀ rest =>
        rw [Utf8.firstChar?_encode] at hc
        obtain rfl := Option.some.inj hc
        refine ⟨[c₀], rest, rfl, plain_of_not_isAscii fun hc₀ => hascii ?_, drop_encode⟩
        rw [peek_cons hc₀] at hpeek
        cases hpeek
        exact le_iff_toNat_le.mpr (Nat.le_of_lt_succ hc₀)

theorem characters_sound {result s : String}
    (h : characters rounds result (encode text) = .ok (s, bytes)) :
    ∃ body chars rest, text = body ++ '"' :: rest ∧ CharsText body chars ∧
      s.toList = result.toList ++ chars ∧ bytes = encode rest := by
  induction rounds generalizing text result with
  | zero => cases h
  | succ rounds ih =>
    rw [characters] at h
    split at h
    · cases h
    next byte hpeek =>
    split at h
    · next hquote =>
      subst hquote
      obtain ⟨rest, rfl⟩ := (peek_eq_some (by decide)).mp hpeek
      cases h
      exact ⟨[], [], rest, rfl, .nil, (List.append_nil _).symm, tail_encode (by decide)⟩
    · next hquote =>
      obtain ⟨⟨c, after⟩, hc, h⟩ := bind_eq_ok.mp h
      obtain ⟨body, rest, rfl, hchar, rfl⟩ := character_sound hpeek hquote hc
      obtain ⟨body', chars, rest, rfl, hchars, hs, hbytes⟩ := ih h
      refine ⟨body ++ body', c :: chars, rest, (List.append_assoc _ _ _).symm, .cons hchar hchars,
        ?_, hbytes⟩
      rw [hs, String.toList_push, List.append_assoc, List.singleton_append]

theorem string_sound {s : String} (h : string (encode text) = .ok (s, bytes)) :
    ∃ name rest, text = name ++ rest ∧ StringText name s ∧ bytes = encode rest := by
  unfold string at h
  split at h
  · cases h
  next after hafter =>
  obtain ⟨inner, rfl, rfl⟩ := (consume_eq_some (by decide)).mp hafter
  obtain ⟨body, chars, rest, rfl, hchars, hs, hbytes⟩ := characters_sound h
  refine ⟨'"' :: body ++ ['"'], rest, by simp, .mk ?_, hbytes⟩
  rw [hs]
  exact hchars

/-! Completeness of strings: the parser reads each form a character may have. -/

theorem unicodeEscape_complete (hquad : HexQuad quad n) (hn : n < 0xd800 ∨ 0xdfff < n) :
    unicodeEscape (encode (quad ++ rest)) = .ok (Char.ofNat n, encode rest) := by
  have hvalid : n.isValidChar := by
    have := hquad.lt
    rcases hn with hn | hn
    · exact .inl hn
    · exact .inr ⟨hn, by omega⟩
  simp only [unicodeEscape, hexQuad_complete hquad, bind, Except.bind]
  rw [if_neg (by omega), if_neg (by omega), fromU32_of_valid hvalid]

theorem surrogates_complete {quad' : List Char} {high low : ℕ} (hquad : HexQuad quad high)
    (hquad' : HexQuad quad' low) (hhigh : 0xd800 ≤ high) (hhigh' : high ≤ 0xdbff)
    (hlow : 0xdc00 ≤ low) (hlow' : low ≤ 0xdfff) :
    unicodeEscape (encode (quad ++ '\\' :: 'u' :: quad' ++ rest)) =
      .ok (Char.ofNat (0x10000 + (high - 0xd800) * 0x400 + (low - 0xdc00)), encode rest) := by
  have hvalid : (0x10000 + (high - 0xd800) * 0x400 + (low - 0xdc00)).isValidChar :=
    .inr ⟨by omega, by omega⟩
  simp (disch := decide) only [List.append_assoc, List.cons_append, unicodeEscape,
    hexQuad_complete hquad, bind, Except.bind, lowSurrogate, consume_cons, Option.bind_some,
    hexQuad_complete hquad']
  rw [if_pos ⟨hhigh, hhigh'⟩, if_pos ⟨hlow, hlow'⟩, fromU32_of_valid hvalid]

theorem escaped_complete {e : Char} (h : (e, c) ∈ escapes) :
    escaped (encode (e :: rest)) = .ok (c, encode rest) := by
  simp only [escapes, List.mem_cons, Prod.mk.injEq, List.not_mem_nil, or_false] at h
  rcases h with ⟨rfl, rfl⟩ | ⟨rfl, rfl⟩ | ⟨rfl, rfl⟩ | ⟨rfl, rfl⟩ | ⟨rfl, rfl⟩ | ⟨rfl, rfl⟩ |
    ⟨rfl, rfl⟩ | ⟨rfl, rfl⟩ <;>
  · unfold escaped
    rw [peek_cons (by decide), tail_encode (by decide)]
    rfl

/-- A backslash leads to what follows it. -/
theorem character_slash : character '\\' (encode ('\\' :: rest)) = escaped (encode rest) := by
  rw [character, if_pos rfl, tail_encode (by decide)]

theorem escaped_unicode : escaped (encode ('u' :: rest)) = unicodeEscape (encode rest) := by
  unfold escaped
  rw [peek_cons (by decide), tail_encode (by decide)]
  rfl

theorem character_plain (hc : ' ' ≤ c) (hquote : c ≠ '"') (hslash : c ≠ '\\') :
    ∃ byte, peek (encode (c :: rest)) = some byte ∧ byte ≠ '"' ∧
      character byte (encode (c :: rest)) = .ok (c, encode rest) := by
  by_cases hascii : IsAscii c
  · refine ⟨c, peek_cons hascii, hquote, ?_⟩
    have hcontrol : ¬ c ≤ '\x1f' := by
      rw [le_iff_toNat_le] at hc ⊢
      exact not_le.mpr hc
    have hle : c ≤ '\x7f' := le_iff_toNat_le.mpr (Nat.le_of_lt_succ hascii)
    rw [character, if_neg hslash, if_neg hcontrol, if_pos hle, tail_encode hascii]
  · obtain ⟨b, bytes, hb, hge⟩ := Utf8.encodeChar_of_not_isAscii hascii
    have hbyte : ∀ a : Char, IsAscii a → ¬ Char.ofUInt8 b ≤ a := by
      intro a ha hle
      have hle : b.toNat ≤ a.toNat := le_iff_toNat_le.mp hle
      have : a.toNat < 128 := ha
      omega
    refine ⟨Char.ofUInt8 b, ?_, ?_, ?_⟩
    · rw [Utf8.encode_cons, hb]
      rfl
    · exact fun h => hbyte '"' (by decide) (h ▸ Char.le_refl _)
    have hslash' : Char.ofUInt8 b ≠ '\\' := fun h => hbyte '\\' (by decide) (h ▸ Char.le_refl _)
    rw [character, if_neg hslash', if_neg (hbyte _ (by decide)), if_neg (hbyte _ (by decide)),
      Utf8.firstChar?_encode]
    exact congrArg (fun bytes => Except.ok (c, bytes)) drop_encode

theorem character_complete (h : CharText body c) (rest : List Char) :
    ∃ byte, peek (encode (body ++ rest)) = some byte ∧ byte ≠ '"' ∧
      character byte (encode (body ++ rest)) = .ok (c, encode rest) := by
  have hslash : ∀ text, peek (encode ('\\' :: text)) = some '\\' := fun text => peek_cons (by decide)
  cases h with
  | plain hc hquote hne => exact character_plain hc hquote hne
  | escape hmem =>
    refine ⟨'\\', hslash _, by decide, ?_⟩
    rw [List.cons_append, character_slash, List.singleton_append]
    exact escaped_complete hmem
  | unicode hquad hn =>
    refine ⟨'\\', hslash _, by decide, ?_⟩
    rw [List.cons_append, character_slash, List.cons_append, escaped_unicode]
    exact unicodeEscape_complete hquad hn
  | surrogates hquad hquad' hhigh hhigh' hlow hlow' =>
    refine ⟨'\\', hslash _, by decide, ?_⟩
    rw [List.cons_append, List.cons_append, List.cons_append, List.cons_append, character_slash,
      escaped_unicode]
    exact surrogates_complete hquad hquad' hhigh hhigh' hlow hlow'

theorem characters_complete {chars : List Char} (h : CharsText body chars) {result : String}
    (hrounds : body.length < rounds) : characters rounds result (encode (body ++ '"' :: rest)) =
      .ok (String.ofList (result.toList ++ chars), encode rest) := by
  induction h generalizing rounds result with
  | nil =>
    obtain ⟨rounds, rfl⟩ := Nat.exists_eq_succ_of_ne_zero (Nat.ne_of_gt hrounds)
    rw [characters, List.nil_append, peek_cons (by decide), tail_encode (by decide)]
    simp
  | @cons text more c chars hchar hchars ih =>
    have hpos := hchar.length_pos
    rw [List.length_append] at hrounds
    obtain ⟨rounds, rfl⟩ := Nat.exists_eq_succ_of_ne_zero (n := rounds) (by omega)
    obtain ⟨byte, hpeek, hquote, hcharacter⟩ :=
      character_complete hchar (more ++ '"' :: rest)
    have hrest : characters rounds (result.push c) (encode (more ++ '"' :: rest)) = _ :=
      ih (by omega)
    rw [List.append_assoc, characters, hpeek]
    simp only [if_neg hquote, hcharacter, bind, Except.bind, hrest]
    simp

/-- There are rounds enough for what comes before the end. -/
theorem length_lt_encode : body.length < (encode (body ++ c :: rest)).length + 1 := by
  have hle : (body ++ c :: rest).length ≤ _ := Utf8.length_le_length_encode
  rw [List.length_append] at hle
  omega

theorem string_complete {name : List Char} {s : String} (h : StringText name s) :
    string (encode (name ++ rest)) = .ok (s, encode rest) := by
  cases h with
  | @mk body s hchars =>
    have hchars : characters ((encode (body ++ '"' :: rest)).length + 1) ""
        (encode (body ++ '"' :: rest)) = _ := characters_complete hchars length_lt_encode
    simp (disch := decide) only [string, List.cons_append, List.append_assoc, List.nil_append,
      consume_cons, hchars]
    simp

/-! ### Soundness of values -/

/-- What the reader of a value accepts is a text of the grammar, within the limits. -/
def Sound (limit levels : ℕ) (read : State → Except CanonicalError (Value × State)) : Prop :=
  ∀ (text : List Char) (k : ℕ) v s, read ⟨encode text, k⟩ = .ok (v, s) →
    ∃ blank body rest, text = blank ++ body ++ rest ∧ IsBlank blank ∧ ValueText body v ∧
      s = ⟨encode rest, k + v.count⟩ ∧ v.depth < levels ∧ k + v.count ≤ limit

section Sound

variable {limit levels : ℕ} {read : State → Except CanonicalError (Value × State)}

variable {s : State}

theorem items_sound (hread : Sound limit levels read) {seen : List Value}
    (h : items read rounds seen ⟨encode text, k⟩ = .ok (v, s)) :
    ∃ body items rest, text = body ++ ']' :: rest ∧ ItemsText body items ∧
      v = .array (seen ++ items) ∧ s = ⟨encode rest, k + Value.countItems items⟩ ∧
      Value.depthItems items ≤ levels ∧ k + Value.countItems items ≤ limit := by
  induction rounds generalizing text k seen with
  | zero => cases h
  | succ rounds ih =>
    rw [items] at h
    obtain ⟨⟨item, after⟩, hitem, h⟩ := bind_eq_ok.mp h
    obtain ⟨blank, body, rest, rfl, hblank, hbody, rfl, hdepth, hcount⟩ := hread _ _ _ _ hitem
    obtain ⟨blank', rest, rfl, hblank', -, hspace⟩ := whitespace_split rest
    dsimp only at h
    rw [hspace] at h
    split at h
    · next final hclose =>
      obtain ⟨rest, rfl, rfl⟩ := (consume_eq_some (by decide)).mp hclose
      cases h
      refine ⟨blank ++ body ++ blank', [item], rest, by simp, .one hblank hbody hblank', rfl, ?_, ?_, ?_⟩
      · simp [Value.countItems]
      · simpa [Value.depthItems] using Nat.succ_le_of_lt hdepth
      · simpa [Value.countItems] using hcount
    · split at h
      · next final hcomma =>
        obtain ⟨rest, rfl, rfl⟩ := (consume_eq_some (by decide)).mp hcomma
        obtain ⟨body', items, rest, rfl, hitems, rfl, rfl, hdepth', hcount'⟩ := ih h
        refine ⟨blank ++ body ++ blank' ++ ',' :: body', item :: items, rest, by simp,
          .more hblank hbody hblank' hitems, by simp, ?_, ?_, ?_⟩
        · simp [Value.countItems, Nat.add_assoc]
        · simp only [Value.depthItems]
          exact max_le hdepth hdepth'
        · simpa [Value.countItems, Nat.add_assoc] using hcount'
      · cases h

theorem fields_sound (hread : Sound limit levels read) {seen : List (String × Value)}
    (hseen : (seen.map Prod.fst).Nodup)
    (h : fields read rounds seen ⟨encode text, k⟩ = .ok (v, s)) :
    ∃ body fields rest, text = body ++ '}' :: rest ∧ FieldsText body fields ∧
      v = .object (seen ++ fields) ∧ ((seen ++ fields).map Prod.fst).Nodup ∧
      s = ⟨encode rest, k + Value.countFields fields⟩ ∧
      Value.depthFields fields ≤ levels ∧ k + Value.countFields fields ≤ limit := by
  induction rounds generalizing text k seen with
  | zero => cases h
  | succ rounds ih =>
    rw [fields] at h
    obtain ⟨before, rest, rfl, hbefore, -, hspace⟩ := whitespace_split text
    dsimp only at h
    rw [hspace] at h
    split at h
    · cases h
    obtain ⟨⟨key, after⟩, hkey, h⟩ := bind_eq_ok.mp h
    obtain ⟨name, rest, rfl, hname, rfl⟩ := string_sound hkey
    dsimp only at h
    split at h
    · cases h
    next hfresh =>
    obtain ⟨between, rest, rfl, hbetween, -, hspace⟩ := whitespace_split rest
    rw [hspace] at h
    split at h
    · cases h
    next after hcolon =>
    obtain ⟨rest, rfl, rfl⟩ := (consume_eq_some (by decide)).mp hcolon
    obtain ⟨⟨value, after⟩, hvalue, h⟩ := bind_eq_ok.mp h
    obtain ⟨between', body, rest, rfl, hbetween', hbody, rfl, hdepth, hcount⟩ := hread _ _ _ _ hvalue
    obtain ⟨last, rest, rfl, hlast, -, hspace⟩ := whitespace_split rest
    dsimp only at h
    rw [hspace] at h
    have hnodup : ((seen ++ [(key, value)]).map Prod.fst).Nodup := by
      simp only [List.contains_eq_mem, decide_eq_true_eq] at hfresh
      rw [List.map_append]
      exact List.nodup_append'.mpr ⟨hseen, by simp, by simpa using hfresh⟩
    split at h
    · next final hclose =>
      obtain ⟨rest, rfl, rfl⟩ := (consume_eq_some (by decide)).mp hclose
      cases h
      refine ⟨before ++ name ++ between ++ ':' :: between' ++ body ++ last, [(key, value)], rest,
        by simp, .one hbefore hname hbetween hbetween' hbody hlast, rfl, hnodup, ?_, ?_, ?_⟩
      · simp [Value.countFields]
      · simpa [Value.depthFields] using Nat.succ_le_of_lt hdepth
      · simpa [Value.countFields] using hcount
    · split at h
      · next final hcomma =>
        obtain ⟨rest, rfl, rfl⟩ := (consume_eq_some (by decide)).mp hcomma
        obtain ⟨body', fields, rest, rfl, hfields, rfl, hall, rfl, hdepth', hcount'⟩ := ih hnodup h
        refine ⟨before ++ name ++ between ++ ':' :: between' ++ body ++ last ++ ',' :: body',
          (key, value) :: fields, rest, by simp,
          .more hbefore hname hbetween hbetween' hbody hlast hfields, by simp, ?_, ?_, ?_, ?_⟩
        · simpa using hall
        · simp [Value.countFields, Nat.add_assoc]
        · simp only [Value.depthFields]
          exact max_le hdepth hdepth'
        · simpa [Value.countFields, Nat.add_assoc] using hcount'
      · cases h

/-- The text starts with a text of the value, within the limits, and the reader goes on after it. -/
def Reads (limit levels k : ℕ) (text : List Char) (v : Value) (s : State) : Prop :=
  ∃ body rest, text = body ++ rest ∧ ValueText body v ∧ s = ⟨encode rest, k + v.count⟩ ∧
    v.depth ≤ levels ∧ k + v.count ≤ limit

theorem array_sound (hread : Sound limit levels read)
    (h : array read ⟨encode ('[' :: text), k + 1⟩ = .ok (v, s)) (hk : k + 1 ≤ limit) :
    Reads limit levels k ('[' :: text) v s := by
  unfold array at h
  dsimp only at h
  obtain ⟨blank, rest, rfl, hblank, -, hspace⟩ := whitespace_split text
  rw [tail_encode (by decide), hspace] at h
  split at h
  · next after hclose =>
    obtain ⟨rest, rfl, rfl⟩ := (consume_eq_some (by decide)).mp hclose
    cases h
    exact ⟨'[' :: blank ++ [']'], rest, by simp, .emptyArray hblank, rfl, zero_le, hk⟩
  · obtain ⟨body, items, rest, rfl, hitems, rfl, rfl, hdepth, hcount⟩ := items_sound hread h
    refine ⟨'[' :: (blank ++ body) ++ [']'], rest, by simp, .array (hitems.prepend hblank), ?_,
      hdepth, ?_⟩
    · rw [Nat.add_assoc]
      rfl
    · rwa [Nat.add_assoc] at hcount

theorem object_sound (hread : Sound limit levels read)
    (h : object read ⟨encode ('{' :: text), k + 1⟩ = .ok (v, s)) (hk : k + 1 ≤ limit) :
    Reads limit levels k ('{' :: text) v s := by
  have isBlank_nil : (([] : List (String × Value)).map Prod.fst).Nodup := List.nodup_nil
  unfold object at h
  dsimp only at h
  obtain ⟨blank, rest, rfl, hblank, -, hspace⟩ := whitespace_split text
  rw [tail_encode (by decide), hspace] at h
  split at h
  · next after hclose =>
    obtain ⟨rest, rfl, rfl⟩ := (consume_eq_some (by decide)).mp hclose
    cases h
    exact ⟨'{' :: blank ++ ['}'], rest, by simp, .emptyObject hblank, rfl, zero_le, hk⟩
  · obtain ⟨body, fields, rest, rfl, hfields, rfl, hnodup, rfl, hdepth, hcount⟩ :=
      fields_sound hread isBlank_nil h
    refine ⟨'{' :: (blank ++ body) ++ ['}'], rest, by simp,
      .object (hfields.prepend hblank) hnodup, ?_, hdepth, ?_⟩
    · rw [Nat.add_assoc]
      rfl
    · rwa [Nat.add_assoc] at hcount

theorem value_sound (limit levels : ℕ) : Sound limit levels (value limit levels) := by
  induction levels with
  | zero => exact fun _ _ _ _ h => absurd h nofun
  | succ levels ih =>
    intro text k v s h
    rw [value] at h
    split at h
    · cases h
    next hfull =>
    have hlimit : k + 1 ≤ limit := not_lt.mp hfull
    obtain ⟨blank, text, rfl, hblank, -, hspace⟩ := whitespace_split text
    dsimp only at h
    rw [hspace] at h
    suffices hreads : Reads limit levels k text v s by
      obtain ⟨body, rest, rfl, hbody, hs, hdepth, hcount⟩ := hreads
      exact ⟨blank, body, rest, (List.append_assoc _ _ _).symm, hblank, hbody, hs,
        Nat.lt_succ_of_le hdepth, hcount⟩
    -- a leaf counts for one value and is not nested
    have hleaf : ∀ {body rest} {leaf : Value}, ValueText body leaf → leaf.count = 1 →
        leaf.depth = 0 → Reads limit levels k (body ++ rest) leaf ⟨encode rest, k + 1⟩ := by
      intro body rest leaf hbody hcount hdepth
      exact ⟨body, rest, rfl, hbody, by rw [hcount], hdepth ▸ zero_le, hcount ▸ hlimit⟩
    have hliteral : ∀ {lit : List Char} {leaf : Value}, (∀ c ∈ lit, IsAscii c) →
        ValueText lit leaf → leaf.count = 1 → leaf.depth = 0 →
        (literal lit (encode text)).map (fun rest => (leaf, ⟨rest, k + 1⟩)) = .ok (v, s) →
        Reads limit levels k text v s := by
      intro lit leaf hlit hbody hcount hdepth h
      obtain ⟨after, hafter, h⟩ := map_eq_ok.mp h
      obtain ⟨rest, rfl, rfl⟩ := (literal_eq_ok hlit).mp hafter
      cases h
      exact hleaf hbody hcount hdepth
    split at h
    · exact hliteral (by decide) .null rfl rfl h
    · exact hliteral (by decide) .true rfl rfl h
    · exact hliteral (by decide) .false rfl rfl h
    · obtain ⟨⟨string, after⟩, hstring, h⟩ := map_eq_ok.mp h
      obtain ⟨name, rest, rfl, hname, rfl⟩ := string_sound hstring
      cases h
      exact hleaf (.string hname) rfl rfl
    · next hpeek =>
      obtain ⟨text, rfl⟩ := (peek_eq_some (by decide)).mp hpeek
      exact array_sound ih h hlimit
    · next hpeek =>
      obtain ⟨text, rfl⟩ := (peek_eq_some (by decide)).mp hpeek
      exact object_sound ih h hlimit
    · split at h
      · obtain ⟨⟨number, after⟩, hnumber, h⟩ := map_eq_ok.mp h
        obtain ⟨num, rest, rfl, hnum, rfl⟩ := number_sound hnumber
        cases h
        refine hleaf (.number hnum) ?_ ?_
        all_goals cases hnum <;> rfl
      · cases h
    · cases h

end Sound

/-! ### Completeness of values -/

theorem endsNumber_blank (hblank : IsBlank blank) : EndsNumber blank := by
  intro c hc
  have hspace := hblank c (List.mem_of_mem_head? hc)
  rcases hspace with rfl | rfl | rfl | rfl <;> decide

theorem endsNumber_append (hblank : IsBlank blank) (hc : c = ',' ∨ c = ']' ∨ c = '}') :
    EndsNumber (blank ++ c :: rest) := by
  cases blank with
  | nil =>
    intro d hd
    cases hd
    rcases hc with rfl | rfl | rfl <;> decide
  | cons b =>
    intro d hd
    cases hd
    rcases hblank b (.head _) with rfl | rfl | rfl | rfl <;> decide

/-- The reader of a value takes what the grammar derives within the limits. -/
def Complete (limit levels : ℕ) (read : State → Except CanonicalError (Value × State)) : Prop :=
  ∀ (blank body rest : List Char) (k : ℕ) v, IsBlank blank → ValueText body v → EndsNumber rest →
    v.depth < levels → k + v.count ≤ limit →
    read ⟨encode (blank ++ body ++ rest), k⟩ = .ok (v, ⟨encode rest, k + v.count⟩)

section Complete

variable {limit levels : ℕ} {read : State → Except CanonicalError (Value × State)}

theorem items_complete (hread : Complete limit levels read) {seen vs : List Value}
    (h : ItemsText body vs) (hdepth : Value.depthItems vs ≤ levels)
    (hcount : k + Value.countItems vs ≤ limit) (hrounds : body.length < rounds) :
    items read rounds seen ⟨encode (body ++ ']' :: rest), k⟩ =
      .ok (.array (seen ++ vs), ⟨encode rest, k + Value.countItems vs⟩) := by
  induction vs generalizing rounds k seen body with
  | nil => cases h
  | cons v vs ih =>
    obtain ⟨rounds, rfl⟩ := Nat.exists_eq_succ_of_ne_zero (Nat.ne_zero_of_lt hrounds)
    simp only [Value.depthItems, Value.countItems] at hdepth hcount
    have hdepth := Nat.max_le.mp hdepth
    cases h with
    | @one before text after v hbefore htext hafter =>
      have hv := hread before text (after ++ ']' :: rest) k v hbefore htext
        (endsNumber_append hafter (by simp)) hdepth.1 (by omega)
      rw [items, List.append_assoc, hv]
      simp (disch := decide) only [bind, Except.bind, whitespace_cons hafter, consume_cons]
      simp [Value.countItems]
    | @more before text after v more vs hbefore htext hafter hmore =>
      have hv := hread before text (after ++ ',' :: (more ++ ']' :: rest)) k v hbefore htext
        (endsNumber_append hafter (by simp)) hdepth.1 (by omega)
      have hrest : items read rounds (seen ++ [v]) ⟨encode (more ++ ']' :: rest), k + v.count⟩ = _ :=
        ih hmore hdepth.2 (by omega) (by
          simp only [List.length_append, List.length_cons] at hrounds
          omega)
      have htext : before ++ text ++ after ++ ',' :: more ++ ']' :: rest =
          before ++ text ++ (after ++ ',' :: (more ++ ']' :: rest)) := by simp
      rw [items, htext, hv]
      simp (disch := decide) only [bind, Except.bind, whitespace_cons hafter, consume_other,
        consume_cons, hrest]
      simp [Value.countItems, Nat.add_assoc]

/-- A field is read up to its value, whatever follows it. -/
theorem fields_start (hread : Complete limit levels read) {seen : List (String × Value)}
    {before name between between' after : List Char} {key : String}
    (hfresh : (seen.map Prod.fst).contains key = false) (hdepth : v.depth < levels)
    (hcount : k + v.count ≤ limit) (hbefore : IsBlank before) (hname : StringText name key)
    (hbetween : IsBlank between) (hbetween' : IsBlank between') (htext : ValueText text v)
    (hend : EndsNumber after) : fields read (rounds + 1) seen
        ⟨encode (before ++ name ++ between ++ ':' :: between' ++ text ++ after), k⟩ =
      (consume '}' (whitespace (encode after))).elim
        ((consume ',' (whitespace (encode after))).elim (.error .invalidJson) fun rest =>
          fields read rounds (seen ++ [(key, v)]) ⟨rest, k + v.count⟩)
        fun rest => .ok (.object (seen ++ [(key, v)]), ⟨rest, k + v.count⟩) := by
  obtain ⟨inner, hinner⟩ := hname.head
  have hquote : ∀ rest, peek (encode (name ++ rest)) = some '"' := fun rest => by
    rw [hinner]
    exact peek_cons (by decide)
  have hv := hread between' text after k v hbetween' htext hend hdepth hcount
  have hassoc : before ++ name ++ between ++ ':' :: between' ++ text ++ after =
      before ++ (name ++ (between ++ ':' :: (between' ++ text ++ after))) := by simp
  rw [fields, hassoc]
  simp (disch := decide) only [whitespace_append hbefore (starts_append hinner (by decide)), hquote,
    ne_eq, not_true_eq_false, if_false, string_complete hname, bind, Except.bind, hfresh,
    Bool.false_eq_true, whitespace_cons hbetween, consume_cons, hv]
  cases consume '}' (whitespace (encode after)) with
  | some => rfl
  | none => cases consume ',' (whitespace (encode after)) <;> rfl

theorem fields_complete (hread : Complete limit levels read) {seen fs : List (String × Value)}
    (h : FieldsText body fs) (hnodup : ((seen ++ fs).map Prod.fst).Nodup)
    (hdepth : Value.depthFields fs ≤ levels) (hcount : k + Value.countFields fs ≤ limit)
    (hrounds : body.length < rounds) : fields read rounds seen ⟨encode (body ++ '}' :: rest), k⟩ =
      .ok (.object (seen ++ fs), ⟨encode rest, k + Value.countFields fs⟩) := by
  induction fs generalizing rounds k seen body with
  | nil => cases h
  | cons f fs ih =>
    obtain ⟨rounds, rfl⟩ := Nat.exists_eq_succ_of_ne_zero (Nat.ne_zero_of_lt hrounds)
    obtain ⟨key, v⟩ := f
    have hfresh : (seen.map Prod.fst).contains key = false := by
      rw [List.map_append, List.map_cons, List.nodup_append'] at hnodup
      have hnot : key ∉ seen.map Prod.fst := fun hmem =>
        hnodup.2.2 hmem (.head _)
      simpa using hnot
    simp only [Value.depthFields, Value.countFields] at hdepth hcount
    have hdepth := Nat.max_le.mp hdepth
    have hcount₁ : k + v.count ≤ limit := by omega
    cases h with
    | @one before name between between' text after key v hbefore hname hbetween hbetween' htext hafter =>
      rw [List.append_assoc, fields_start hread hfresh hdepth.1 hcount₁ hbefore hname hbetween
        hbetween' htext (endsNumber_append hafter (by simp))]
      simp (disch := decide) only [whitespace_cons hafter, consume_cons, Option.elim_some]
      simp [Value.countFields]
    | @more before name between between' text after key v more fs hbefore hname hbetween hbetween'
        htext hafter hmore =>
      have hrest : fields read rounds (seen ++ [(key, v)])
          ⟨encode (more ++ '}' :: rest), k + v.count⟩ = _ :=
        ih hmore (by simpa using hnodup) hdepth.2 (by omega) (by
          simp only [List.length_append, List.length_cons] at hrounds
          omega)
      have hassoc : before ++ name ++ between ++ ':' :: between' ++ text ++ after ++ ',' :: more ++
          '}' :: rest = before ++ name ++ between ++ ':' :: between' ++ text ++
            (after ++ ',' :: (more ++ '}' :: rest)) := by simp
      rw [hassoc, fields_start hread hfresh hdepth.1 hcount₁ hbefore hname hbetween hbetween' htext
        (endsNumber_append hafter (by simp))]
      simp (disch := decide) only [whitespace_cons hafter, consume_other, consume_cons, hrest,
        Option.elim_none, Option.elim_some]
      simp [Value.countFields, Nat.add_assoc]

theorem array_complete (hread : Complete limit levels read) {vs : List Value}
    (h : ValueText body (.array vs)) (hdepth : Value.depthItems vs ≤ levels)
    (hcount : k + Value.countItems vs ≤ limit) : array read ⟨encode (body ++ rest), k⟩ =
      .ok (.array vs, ⟨encode rest, k + Value.countItems vs⟩) := by
  cases h with
  | number hnum => cases hnum
  | emptyArray hblank =>
    simp (disch := decide) only [array, List.cons_append, List.append_assoc, List.nil_append,
      tail_encode, whitespace_cons hblank, consume_cons, Value.countItems, Nat.add_zero]
  | array hitems =>
    obtain ⟨blank, body, c, tail, rfl, hblank, hitems, hbody, hspace, hc⟩ := hitems.split
    have hclose : consume ']' (encode (body ++ ']' :: rest)) = none := by
      rw [hbody]
      exact consume_other (by decide) hc
    have hall : items read ((encode (body ++ ']' :: rest)).length + 1) []
        ⟨encode (body ++ ']' :: rest), k⟩ = _ :=
      items_complete hread hitems hdepth hcount length_lt_encode
    simp (disch := decide) only [array, List.cons_append, List.append_assoc, List.nil_append,
      tail_encode, whitespace_append hblank (starts_append hbody hspace), hclose, hall]

theorem object_complete (hread : Complete limit levels read) {fs : List (String × Value)}
    (h : ValueText body (.object fs)) (hdepth : Value.depthFields fs ≤ levels)
    (hcount : k + Value.countFields fs ≤ limit) : object read ⟨encode (body ++ rest), k⟩ =
      .ok (.object fs, ⟨encode rest, k + Value.countFields fs⟩) := by
  cases h with
  | number hnum => cases hnum
  | emptyObject hblank =>
    simp (disch := decide) only [object, List.cons_append, List.append_assoc, List.nil_append,
      tail_encode, whitespace_cons hblank, consume_cons, Value.countFields, Nat.add_zero]
  | object hfields hnodup =>
    obtain ⟨blank, body, tail, rfl, hblank, hfields, hbody⟩ := hfields.split
    have hclose : consume '}' (encode (body ++ '}' :: rest)) = none := by
      rw [hbody]
      exact consume_other (by decide) (by decide)
    have hall : fields read ((encode (body ++ '}' :: rest)).length + 1) []
        ⟨encode (body ++ '}' :: rest), k⟩ = _ :=
      fields_complete hread hfields (by simpa using hnodup) hdepth hcount length_lt_encode
    simp (disch := decide) only [object, List.cons_append, List.append_assoc, List.nil_append,
      tail_encode, whitespace_append hblank (starts_append hbody (by decide)), hclose, hall]

theorem value_complete (limit levels : ℕ) : Complete limit levels (value limit levels) := by
  induction levels with
  | zero =>
    intro _ _ _ _ _ _ _ _ hdepth
    exact absurd hdepth (Nat.not_lt_zero _)
  | succ levels ih =>
    intro blank body rest k v hblank hbody hend hdepth hcount
    have hpos := v.count_pos
    have hwhole := hbody
    obtain ⟨c, tail, htail, hspace, -⟩ := hbody.head
    have hlimit : ¬ limit < k + 1 := by omega
    rw [value, List.append_assoc]
    simp only [if_neg hlimit, whitespace_append hblank (starts_append htail hspace)]
    cases hbody with
    | null | true | false =>
      rw [show peek (encode (_ :: _ ++ rest)) = _ from peek_cons (by decide),
        literal_append (by decide)]
      rfl
    | number hnum =>
      obtain ⟨c, tail, rfl, hc⟩ := hnum.head
      have hascii : IsAscii c := by
        rcases hc with rfl | hc
        · decide
        · exact isAscii_of_isDigit hc
      have hpeek : peek (encode (c :: tail ++ rest)) = some c := peek_cons hascii
      have hcount : v.count = 1 := by cases hnum <;> rfl
      rw [hpeek]
      -- no other kind of value starts with a sign or a digit
      split <;> rename_i heq
      case h_7 =>
        cases heq
        rw [if_pos hc, number_complete hnum hend, hcount]
        rfl
      case h_8 => cases heq
      all_goals
        cases heq
        rcases hc with hc | hc <;> exact absurd hc (by decide)
    | string hname =>
      obtain ⟨tail, rfl⟩ := hname.head
      have hpeek : peek (encode ('"' :: tail ++ rest)) = some '"' := peek_cons (by decide)
      rw [hpeek]
      simp only [string_complete hname]
      rfl
    | emptyArray | array =>
      simp only [Value.count] at hcount
      rw [show peek (encode (_ ++ rest)) = some '[' from peek_cons (by decide)]
      simp only [array_complete (k := k + 1) ih hwhole (Nat.le_of_lt_succ hdepth) (by omega),
        Value.count, Nat.add_assoc]
    | emptyObject | object =>
      simp only [Value.count] at hcount
      rw [show peek (encode (_ ++ rest)) = some '{' from peek_cons (by decide)]
      simp only [object_complete (k := k + 1) ih hwhole (Nat.le_of_lt_succ hdepth) (by omega),
        Value.count, Nat.add_assoc]

end Complete

end Parser

/-! ### Documents -/

/-- What the parser returns is denoted by the text and within the limits. -/
theorem denotes_of_parseJson {source : String} (h : parseJson source = .ok v) :
    (encode source.toList).length ≤ maxCanonicalJsonBytes ∧ Denotes source.toList v ∧
      v.depth ≤ maxDepth ∧ v.count ≤ maxValues := by
  unfold parseJson at h
  dsimp only at h
  split at h
  · cases h
  next hsize =>
  obtain ⟨⟨v', s⟩, hvalue, h⟩ := bind_eq_ok.mp h
  obtain ⟨blank, body, rest, htext, hblank, hbody, rfl, hdepth, hcount⟩ :=
    Parser.value_sound _ _ _ _ _ _ hvalue
  dsimp only at h
  split at h
  · cases h
  next hend =>
  cases h
  -- all that is left is white space
  obtain ⟨after, rest, rfl, hafter, -, hspace⟩ := Parser.whitespace_split rest
  have isBlank_nil : rest = [] := by
    rw [hspace, not_not] at hend
    exact Utf8.encode_injective hend
  subst isBlank_nil
  refine ⟨not_lt.mp hsize, ?_, Nat.le_of_lt_succ hdepth, by simpa using hcount⟩
  rw [htext, List.append_nil]
  exact .mk hblank hbody hafter

/-- The parser returns what a text within the limits denotes. -/
theorem parseJson_of_denotes {source : String}
    (hsize : (encode source.toList).length ≤ maxCanonicalJsonBytes)
    (hdenotes : Denotes source.toList v) (hdepth : v.depth ≤ maxDepth)
    (hcount : v.count ≤ maxValues) : parseJson source = .ok v := by
  unfold parseJson
  generalize source.toList = text at hsize hdenotes
  cases hdenotes with
  | @mk before body after v hbefore hbody hafter =>
    have hvalue := Parser.value_complete maxValues (maxDepth + 1) before body after 0 v hbefore hbody
      (Parser.endsNumber_blank hafter) (Nat.lt_succ_of_le hdepth) (by simpa using hcount)
    have hspace : Parser.whitespace (encode (after ++ [])) = encode [] :=
      Parser.whitespace_append hafter fun c hc => absurd hc nofun
    rw [List.append_nil] at hspace
    simp only [if_neg (not_lt.mpr hsize), hvalue, bind, Except.bind, hspace, ne_eq,
      Utf8.encode_nil, not_true_eq_false, if_false]
    rfl

/-- The parser accepts the texts of the grammar within its limits, and returns the values they
denote. -/
theorem parseJson_eq_ok_iff (source : String) (v : Value) : parseJson source = .ok v ↔
      (encode source.toList).length ≤ maxCanonicalJsonBytes ∧ Denotes source.toList v ∧
        v.depth ≤ maxDepth ∧ v.count ≤ maxValues :=
  ⟨denotes_of_parseJson, fun h => parseJson_of_denotes h.1 h.2.1 h.2.2.1 h.2.2.2⟩

theorem ValueText.unique {w : Value} (hv : ValueText body v) (hw : ValueText body w) : v = w := by
  have hend : Parser.EndsNumber [] := fun c hc => absurd hc nofun
  -- limits that are wide enough for both
  let limit := max v.count w.count
  let levels := max v.depth w.depth + 1
  have hread : ∀ {u : Value}, ValueText body u → u.depth < levels → u.count ≤ limit →
      Parser.value limit levels ⟨encode ([] ++ body ++ []), 0⟩ = .ok (u, ⟨encode [], 0 + u.count⟩) :=
    fun hu hdepth hcount => Parser.value_complete limit levels [] body [] 0 _ isBlank_nil hu hend hdepth
      (by simpa using hcount)
  have hv := hread hv (Nat.lt_succ_of_le (le_max_left _ _)) (le_max_left _ _)
  have hw := hread hw (Nat.lt_succ_of_le (le_max_right _ _)) (le_max_right _ _)
  exact (Prod.mk.inj (Except.ok.inj (hv.symm.trans hw))).1

end BlindPass.Canon
