import BlindPass.Library.Utf8

/-!
# Text cut into pieces

Hand-written readers of line formats take a text apart at fixed words: they strip a beginning or
an end, split at the first occurrence of a separator, and read a number. A file of lines is taken
apart at its newlines; a write that was interrupted leaves a part of a line behind the last one.
-/

namespace Text

section SplitOnce

variable {α : Type*} [DecidableEq α]

/-- `split_once`: what stands before and after the first occurrence of `sep`. -/
def splitOnce (sep : List α) : List α → Option (List α × List α)
  | [] => if sep = [] then some ([], []) else none
  | c :: rest =>
    match (c :: rest).dropPrefix? sep with
    | some after => some ([], after)
    | none => (splitOnce sep rest).map fun pieces => (c :: pieces.1, pieces.2)

variable {sep text before after : List α} {c : α}

theorem dropPrefix?_eq_some : text.dropPrefix? sep = some after ↔ text = sep ++ after := by
  rw [List.dropPrefix?_eq_some_iff]
  constructor
  · rintro ⟨sep', rfl, hsep⟩
    rw [eq_of_beq hsep]
  · intro h
    exact ⟨sep, h, beq_self_eq_true _⟩

theorem dropSuffix?_eq_some : text.dropSuffix? sep = some before ↔ text = before ++ sep := by
  rw [List.dropSuffix?_eq_some_iff]
  constructor
  · rintro ⟨sep', rfl, hsep⟩
    rw [eq_of_beq hsep]
  · intro h
    exact ⟨sep, h, beq_self_eq_true _⟩

theorem eq_of_splitOnce (h : splitOnce sep text = some (before, after)) :
    text = before ++ sep ++ after := by
  induction text generalizing before with
  | nil =>
    rw [splitOnce] at h
    split at h
    · rename_i hsep
      cases h
      rw [hsep]
      rfl
    · cases h
  | cons c rest ih =>
    rw [splitOnce] at h
    split at h
    · rename_i found hfound
      cases h
      exact dropPrefix?_eq_some.mp hfound
    · obtain ⟨⟨before', after'⟩, hrest, heq⟩ := Option.map_eq_some_iff.mp h
      cases heq
      rw [ih hrest]
      rfl

/-- A separator is found behind a text without its first character. -/
theorem splitOnce_append (hsep : sep.head? = some c) (h : c ∉ before) :
    splitOnce sep (before ++ (sep ++ after)) = some (before, after) := by
  obtain ⟨sep', rfl⟩ : ∃ sep', sep = c :: sep' := List.head?_eq_some_iff.mp hsep
  induction before with
  | nil =>
    have hfound : (c :: (sep' ++ after)).dropPrefix? (c :: sep') = some after :=
      dropPrefix?_eq_some.mpr rfl
    simp only [List.nil_append, List.cons_append, splitOnce, hfound]
  | cons d rest ih =>
    rw [List.mem_cons, not_or] at h
    have hnone : (d :: (rest ++ (c :: sep' ++ after))).dropPrefix? (c :: sep') = none := by
      rw [Option.eq_none_iff_forall_ne_some]
      intro found hfound
      have heq := dropPrefix?_eq_some.mp hfound
      exact h.1 (List.cons.inj heq).1.symm
    rw [List.cons_append, splitOnce, hnone, ih h.2]
    rfl

theorem splitOnce_eq_none (hsep : sep.head? = some c) (h : c ∉ text) :
    splitOnce sep text = none := by
  rw [Option.eq_none_iff_forall_ne_some]
  rintro ⟨before, after⟩ hsplit
  apply h
  rw [eq_of_splitOnce hsplit]
  simp [List.mem_of_mem_head? (Option.mem_def.mpr hsep)]

end SplitOnce

/-! ### Numbers -/

/-- `parse::<u64>`: digits, after a plus sign or none, of a number below `2 ^ 64`. -/
def parseU64 (text : List Char) : Option ℕ :=
  let digits := (text.dropPrefix? ['+']).getD text
  if digits ≠ [] ∧ digits.all Char.isDigit ∧ Nat.ofDigitChars 10 digits 0 < 2 ^ 64 then
    some (Nat.ofDigitChars 10 digits 0)
  else none

theorem toList_toString (n : ℕ) : (toString n).toList = Nat.toDigits 10 n := by
  rw [Nat.toString_eq_repr, Nat.toList_repr]

theorem isDigit_of_mem_toString {n : ℕ} {c : Char} (h : c ∈ (toString n).toList) :
    c.isDigit = true := by
  rw [toList_toString] at h
  exact Nat.isDigit_of_mem_toDigits (by decide) (by decide) h

theorem not_mem_toString {n : ℕ} {c : Char} (h : c.isDigit = false) : c ∉ (toString n).toList := by
  intro hmem
  rw [isDigit_of_mem_toString hmem] at h
  cases h

/-- A number is read back. -/
theorem parseU64_toString {n : ℕ} (h : n < 2 ^ 64) : parseU64 (toString n).toList = some n := by
  have hnone : (toString n).toList.dropPrefix? ['+'] = none := by
    rw [Option.eq_none_iff_forall_ne_some]
    intro rest hrest
    apply not_mem_toString (n := n) (c := '+') rfl
    rw [dropPrefix?_eq_some.mp hrest]
    exact .head _
  have hdigits : (toString n).toList.all Char.isDigit = true :=
    List.all_eq_true.mpr fun c hc => isDigit_of_mem_toString hc
  have hne : (toString n).toList ≠ [] := by
    rw [toList_toString]
    exact Nat.toDigits_ne_nil
  have hvalue : Nat.ofDigitChars 10 (toString n).toList 0 = n := by
    rw [toList_toString]
    exact Nat.ofDigitChars_toDigits (by decide) (by decide)
  simp only [parseU64, hnone, Option.getD_none, hvalue]
  exact if_pos ⟨hne, hdigits, h⟩

theorem lt_of_parseU64 {text : List Char} {n : ℕ} (h : parseU64 text = some n) : n < 2 ^ 64 := by
  unfold parseU64 at h
  dsimp only at h
  split at h
  · rename_i hvalid
    cases h
    exact hvalid.2.2
  · cases h

/-! ### Lines -/

section Lines

variable {α : Type*} (nl : α)

/-- A file of lines, each with its terminator. -/
def unlines (lines : List (List α)) : List α := lines.flatMap (· ++ [nl])

/-- The file up to its last terminator. -/
def keepLines [DecidableEq α] (contents : List α) : List α :=
  contents.rdropWhile fun c => c != nl

variable {nl} {lines : List (List α)} {line tail part : List α}

theorem unlines_cons : unlines nl (line :: lines) = line ++ nl :: unlines nl lines := by
  simp [unlines]

theorem unlines_append {lines' : List (List α)} :
    unlines nl (lines ++ lines') = unlines nl lines ++ unlines nl lines' := List.flatMap_append

/-- The file ends with a terminator, or is empty. -/
theorem unlines_eq_nil_or (lines : List (List α)) :
    unlines nl lines = [] ∨ ∃ before, unlines nl lines = before ++ [nl] := by
  rcases List.eq_nil_or_concat' lines with rfl | ⟨rest, last, rfl⟩
  · exact .inl rfl
  · refine .inr ⟨unlines nl rest ++ last, ?_⟩
    simp [unlines]

section Split

variable [DecidableEq α]

theorem splitOn_unlines (hlines : ∀ l ∈ lines, nl ∉ l) (htail : nl ∉ tail) :
    (unlines nl lines ++ tail).splitOn nl = lines ++ [tail] := by
  have hfree : ∀ l : List α, nl ∉ l → ∀ x ∈ l, (x == nl) = false := by
    intro l hl x hx
    rw [beq_eq_false_iff_ne]
    rintro rfl
    exact hl hx
  induction lines with
  | nil => exact List.splitOnP_eq_singleton (hfree tail htail)
  | cons line rest ih =>
    have hrest := ih fun l hl => hlines l (.tail line hl)
    have hline := hfree line (hlines line (.head _))
    rw [unlines_cons, List.append_assoc, List.cons_append, List.splitOn_eq_splitOnP,
      List.splitOnP_append_cons_of_forall_mem hline nl (beq_self_eq_true nl),
      ← List.splitOn_eq_splitOnP, hrest]
    rfl

theorem keepLines_unlines (hpart : nl ∉ part) : keepLines nl (unlines nl lines ++ part) =
    unlines nl lines := by
  unfold keepLines
  induction part using List.reverseRecOn with
  | nil =>
    rw [List.append_nil]
    rcases unlines_eq_nil_or lines with hnil | ⟨before, hbefore⟩
    · rw [hnil]
      rfl
    · rw [hbefore, List.rdropWhile_concat_neg]
      simp
  | append_singleton part c ih =>
    rw [List.mem_append, List.mem_singleton, not_or] at hpart
    rw [← List.append_assoc, List.rdropWhile_concat_pos, ih hpart.1]
    simpa using Ne.symm hpart.2

end Split

/-- What remains of a file of lines is complete lines and a part of the next one. -/
theorem exists_of_prefix_unlines {contents : List α} (hlines : ∀ l ∈ lines, nl ∉ l)
    (htail : nl ∉ tail) (h : contents <+: unlines nl lines ++ tail) :
    ∃ n part, contents = unlines nl (lines.take n) ++ part ∧ nl ∉ part ∧
      ∃ l, (lines ++ [tail])[n]? = some l ∧ part <+: l := by
  induction lines generalizing contents with
  | nil => exact ⟨0, contents, rfl, fun hmem => htail (h.mem hmem), tail, rfl, h⟩
  | cons line rest ih =>
    have hline : nl ∉ line := hlines line (.head _)
    have hwhole : unlines nl (line :: rest) ++ tail = line ++ nl :: (unlines nl rest ++ tail) := by
      rw [unlines_cons, List.append_assoc, List.cons_append]
    rw [hwhole] at h
    rcases List.prefix_or_prefix_of_prefix h (List.prefix_append line _) with hpart | ⟨after, rfl⟩
    · -- the first line is not complete
      exact ⟨0, contents, rfl, fun hmem => hline (hpart.mem hmem), line, rfl, hpart⟩
    rw [List.prefix_append_right_inj] at h
    cases after with
    | nil => exact ⟨0, line, by simp [unlines], hline, line, rfl, List.prefix_rfl⟩
    | cons =>
      obtain ⟨rfl, hafter⟩ := List.cons_prefix_cons.mp h
      obtain ⟨n, part, rfl, hfree, l, hl, hpart⟩ :=
        ih (fun l hl => hlines l (.tail line hl)) hafter
      refine ⟨n + 1, part, ?_, hfree, l, hl, hpart⟩
      rw [List.take_succ_cons, unlines_cons, List.append_assoc, List.cons_append]

end Lines

end Text
