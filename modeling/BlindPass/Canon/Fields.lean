import BlindPass.Canon.Writer

/-!
# The fields of a canonical form

A reader of an object looks its fields up by name. Two values with one canonical form answer
every such question alike: what stands under a name differs in the order of nested fields and
in the representation of numbers only.
-/

namespace BlindPass.Fleet.Value

/-- The keys of an object are distinct. -/
def Distinct : Value → Prop
  | object fields => (fields.map Prod.fst).Nodup
  | _ => True

instance : DecidablePred Distinct
  | object fields => inferInstanceAs (Decidable (fields.map Prod.fst).Nodup)
  | null | bool _ | integer _ | unsigned _ | string _ | array _ => isTrue trivial

theorem get_object (fields : List (String × Value)) (name : String) :
    (object fields).get name = (fields.find? fun f => f.1 == name).map Prod.snd := rfl

/-- Under distinct keys a field is found exactly if it is there. -/
theorem get_eq_some {fields : List (String × Value)} (h : (object fields).Distinct)
    {name : String} {v : Value} : (object fields).get name = some v ↔ (name, v) ∈ fields := by
  rw [get_object, Option.map_eq_some_iff]
  constructor
  · rintro ⟨f, hf, rfl⟩
    have hname : f.1 = name := by simpa using List.find?_some hf
    rw [← hname]
    exact List.mem_of_find?_eq_some hf
  · intro hmem
    cases hfind : fields.find? fun f => f.1 == name with
    | none => exact absurd (beq_self_eq_true name) (List.find?_eq_none.mp hfind _ hmem)
    | some f =>
      have hname : f.1 = name := by simpa using List.find?_some hfind
      have hf := List.inj_on_of_nodup_map h (List.mem_of_find?_eq_some hfind) hmem hname
      exact ⟨f, rfl, by rw [hf]⟩

end BlindPass.Fleet.Value

namespace BlindPass.Canon

open Fleet (Value)
open Transaction (bind_eq_ok map_eq_ok)

variable {v w : Value} {bytes : List UInt8}

/-- A form belongs to one normal value. -/
theorem norm_eq_of_canonicalizeValue (hv : canonicalizeValue v = .ok bytes)
    (hw : canonicalizeValue w = .ok bytes) : norm v = norm w := by
  obtain ⟨t, ht, rfl, -⟩ := canonicalizeValue_eq_ok.mp hv
  obtain ⟨t', ht', hbytes, -⟩ := canonicalizeValue_eq_ok.mp hw
  obtain rfl := Utf8.encode_injective hbytes
  exact (valueText_writeValue ht).unique (valueText_writeValue ht')

theorem same_of_norm_eq (h : norm v = norm w) : Same v w := by
  have hsame := same_norm v
  rw [h] at hsame
  exact hsame.trans (same_norm w).symm

/-- Only an object with distinct keys is written. -/
theorem distinct_of_writeValue {depth : ℕ} {t : List Char} (h : writeValue v depth = .ok t) :
    v.Distinct := by
  cases v with
  | object fields =>
    rw [writeValue, atDepth_eq_ok] at h
    obtain ⟨text, htext, -⟩ := map_eq_ok.mp h.2
    have hnodup := nodup_of_writeFields htext (List.pairwise_insertionSort KeyLe _)
    have hperm := (List.perm_insertionSort KeyLe (writeEach fields (depth + 1))).map Prod.fst
    rw [hperm.nodup_iff, writeEach_eq_map, List.map_map] at hnodup
    exact hnodup
  | _ => trivial

theorem distinct_of_canonicalizeValue (h : canonicalizeValue v = .ok bytes) : v.Distinct := by
  obtain ⟨t, ht, -, -⟩ := canonicalizeValue_eq_ok.mp h
  exact distinct_of_writeValue ht

/-! ### Looking fields up -/

theorem distinct_norm (h : v.Distinct) : (norm v).Distinct := by
  cases v with
  | object fields =>
    rw [norm, Value.Distinct]
    have hperm := (List.perm_insertionSort KeyLe (normEach fields)).map Prod.fst
    rw [hperm.nodup_iff, normEach_eq_map, List.map_map]
    exact h
  | integer | unsigned =>
    rw [norm, normInteger]
    split <;> trivial
  | _ =>
    rw [norm]
    trivial

theorem get_norm (h : v.Distinct) (name : String) : (norm v).get name = (v.get name).map norm := by
  cases v with
  | object =>
    have hnorm := distinct_norm h
    rw [norm] at hnorm ⊢
    ext w
    rw [Value.get_eq_some hnorm, List.mem_insertionSort, normEach_eq_map, Option.map_eq_some_iff,
      List.mem_map]
    constructor
    · rintro ⟨f, hf, heq⟩
      cases heq
      exact ⟨f.2, (Value.get_eq_some h).mpr hf, rfl⟩
    · rintro ⟨u, hu, rfl⟩
      exact ⟨(name, u), (Value.get_eq_some h).mp hu, rfl⟩
  | integer | unsigned =>
    rw [norm, normInteger]
    split <;> rfl
  | _ =>
    rw [norm]
    rfl

theorem asStr_norm (v : Value) : (norm v).asStr = v.asStr := by
  cases v with
  | integer | unsigned =>
    rw [norm, normInteger]
    split <;> rfl
  | array | object =>
    rw [norm]
    rfl
  | _ => rw [norm]

theorem asU64_norm (v : Value) : (norm v).asU64 = v.asU64 := by
  cases v with
  | integer n =>
    rw [norm, normInteger]
    split
    · next h => simp [Value.asU64, Int.not_le.mpr h]
    next h =>
    have hn : 0 ≤ n := Int.not_lt.mp h
    simp only [Value.asU64, if_pos hn]
    congr 1
    omega
  | unsigned n =>
    rw [norm, normInteger, if_neg (Int.not_lt.mpr (Int.natCast_nonneg n))]
    rfl
  | array | object =>
    rw [norm]
    rfl
  | _ => rw [norm]

theorem asArray_norm (v : Value) : (norm v).asArray = v.asArray.map (List.map norm) := by
  cases v with
  | integer | unsigned =>
    rw [norm, normInteger]
    split <;> rfl
  | array =>
    rw [norm, normAll_eq_map]
    rfl
  | _ =>
    rw [norm]
    rfl

theorem str_norm (h : v.Distinct) (name : String) : (norm v).str name = v.str name := by
  rw [Value.str, Value.str, get_norm h]
  cases v.get name with
  | none => rfl
  | some w => exact asStr_norm w

theorem u64_norm (h : v.Distinct) (name : String) : (norm v).u64 name = v.u64 name := by
  rw [Value.u64, Value.u64, get_norm h]
  cases v.get name with
  | none => rfl
  | some w => exact asU64_norm w

theorem hasFields_norm (v : Value) (names : List String) :
    (norm v).hasFields names = v.hasFields names := by
  cases v with
  | object fields =>
    have hperm := List.perm_insertionSort KeyLe (normEach fields)
    rw [norm, Value.hasFields, Value.hasFields]
    simp only [Value.asObject, Option.any_some]
    rw [hperm.length_eq, hperm.all_eq, normEach_eq_map, List.length_map, List.all_map]
    rfl
  | integer | unsigned =>
    rw [norm, normInteger]
    split <;> rfl
  | array =>
    rw [norm]
    rfl
  | _ => rw [norm]

theorem norm_eq_null {v : Value} : norm v = .null ↔ v = .null := by
  cases v with
  | integer | unsigned =>
    rw [norm, normInteger]
    split <;> simp
  | _ => simp [norm]

section Agree

variable (hv : v.Distinct) (hw : w.Distinct) (h : norm v = norm w)

include hv hw h

theorem get_eq_of_norm_eq (name : String) : (v.get name).map norm = (w.get name).map norm := by
  rw [← get_norm hv, ← get_norm hw, h]

theorem str_eq_of_norm_eq (name : String) : v.str name = w.str name := by
  rw [← str_norm hv, ← str_norm hw, h]

theorem u64_eq_of_norm_eq (name : String) : v.u64 name = w.u64 name := by
  rw [← u64_norm hv, ← u64_norm hw, h]

end Agree

/-! ### Parts of a value that was written -/

/-- What stands in an object that was written was written, too. -/
theorem written_of_mem {fields : List (String × Value)} {depth : ℕ} {t : List Char}
    (h : writeValue (.object fields) depth = .ok t) {f : String × Value} (hf : f ∈ fields) :
    ∃ t', writeValue f.2 (depth + 1) = .ok t' := by
  have hchild : ∀ (gs : List (String × Value)) (previous : Option String) (text : List Char),
      writeFields previous (gs.map fun g => (g.1, writeValue g.2 (depth + 1))) = .ok text →
        f ∈ gs → ∃ t', writeValue f.2 (depth + 1) = .ok t' := by
    intro gs
    induction gs with
    | nil =>
      intro previous text _ hmem
      exact absurd hmem List.not_mem_nil
    | cons g rest ih =>
      intro previous text hwrite hmem
      rw [List.map_cons, writeFields] at hwrite
      split at hwrite
      · cases hwrite
      obtain ⟨child, hchild, hwrite⟩ := bind_eq_ok.mp hwrite
      obtain ⟨more, hmore, -⟩ := bind_eq_ok.mp hwrite
      rcases List.mem_cons.mp hmem with rfl | hmem
      · exact ⟨child, hchild⟩
      · exact ih _ more hmore hmem
  rw [writeValue, atDepth_eq_ok, writeEach_sorted] at h
  obtain ⟨text, htext, -⟩ := map_eq_ok.mp h.2
  exact hchild _ none text htext ((List.mem_insertionSort KeyLe).mpr hf)

end BlindPass.Canon
