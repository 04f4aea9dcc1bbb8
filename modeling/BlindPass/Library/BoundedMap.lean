import BlindPass.Library.Table

/-!
# Maps that forget their oldest entries

A bounded map finds its entries by key and remembers the order in which they came. An entry
beyond the bound pushes the oldest one out. That the order lists exactly the keys, each once, and
no more of them than the bound allows is part of the map.
-/

/-- A map, the order its keys came in, and the bound on their number. -/
structure BoundedMap (κ α : Type*) [Ord κ] where
  values : Std.TreeMap κ α
  order : List κ
  limit : ℕ
  nodup : order.Nodup
  mem_order : ∀ k, k ∈ order ↔ k ∈ values
  length_le : order.length ≤ limit

namespace BoundedMap

variable {κ α : Type*} [Ord κ]

/-- The order after a key came. -/
def ordered (m : BoundedMap κ α) (k : κ) : List κ :=
  if m.values.contains k then m.order else m.order ++ [k]

theorem nodup_ordered (m : BoundedMap κ α) (k : κ) : (m.ordered k).Nodup := by
  unfold ordered
  by_cases hk : m.values.contains k = true
  · rw [if_pos hk]
    exact m.nodup
  rw [if_neg hk, List.nodup_append]
  have hnot : k ∉ m.order := by rwa [m.mem_order, Std.TreeMap.mem_iff_contains]
  refine ⟨m.nodup, List.nodup_singleton k, ?_⟩
  intro a ha b hb hab
  rw [List.mem_singleton] at hb
  exact hnot (hb ▸ hab ▸ ha)

theorem mem_ordered (m : BoundedMap κ α) (k k' : κ) :
    k' ∈ m.ordered k ↔ k' = k ∨ k' ∈ m.values := by
  unfold ordered
  by_cases hk : m.values.contains k = true
  · rw [if_pos hk, m.mem_order]
    constructor
    · exact .inr
    · rintro (rfl | h)
      · exact Std.TreeMap.mem_iff_contains.mpr hk
      · exact h
  · rw [if_neg hk, List.mem_append, m.mem_order, List.mem_singleton]
    exact or_comm

variable [Std.TransOrd κ]

/-- A map without entries. -/
def new (limit : ℕ) : BoundedMap κ α where
  values := ∅
  order := []
  limit := limit
  nodup := List.nodup_nil
  mem_order k := by simp
  length_le := zero_le

variable [Std.LawfulEqOrd κ] [DecidableEq κ]

theorem mem_foldl_erase {t : Std.TreeMap κ α} {l : List κ} {k : κ} :
    k ∈ l.foldl (fun t k => t.erase k) t ↔ k ∉ l ∧ k ∈ t := by
  rw [← Std.TreeMap.isSome_getElem?_iff_mem, Table.getElem?_foldl_erase fun k => k, List.map_id',
    ← Std.TreeMap.isSome_getElem?_iff_mem]
  by_cases h : k ∈ l <;> simp [h]

/-- Put an entry in, and drop the oldest ones beyond the bound. -/
def insert (m : BoundedMap κ α) (k : κ) (v : α) : BoundedMap κ α where
  values := ((m.ordered k).take ((m.ordered k).length - m.limit)).foldl (fun t k => t.erase k)
    (m.values.insert k v)
  order := (m.ordered k).drop ((m.ordered k).length - m.limit)
  limit := m.limit
  nodup := (m.nodup_ordered k).sublist (List.drop_sublist _ _)
  mem_order k' := by
    have hsplit := List.take_append_drop ((m.ordered k).length - m.limit) (m.ordered k)
    have hnodup := m.nodup_ordered k
    rw [← hsplit, List.nodup_append] at hnodup
    have hmem := m.mem_ordered k k'
    rw [← hsplit, List.mem_append] at hmem
    rw [mem_foldl_erase, Std.TreeMap.mem_insert, Std.compare_eq_iff_eq, eq_comm (a := k),
      ← hmem]
    constructor
    · intro h
      exact ⟨fun htake => hnodup.2.2 k' htake k' h rfl, .inr h⟩
    · rintro ⟨hnot, htake | hdrop⟩
      · exact absurd htake hnot
      · exact hdrop
  length_le := by
    rw [List.length_drop]
    omega

/-- Putting an entry in adds that one; the bound may drop others. -/
theorem of_insert {m : BoundedMap κ α} {k k' : κ} {v w : α}
    (h : (m.insert k v).values[k']? = some w) : k' = k ∧ w = v ∨ m.values[k']? = some w := by
  have hinsert := Table.getElem?_of_foldl_erase h
  rw [Std.TreeMap.getElem?_insert] at hinsert
  split at hinsert
  · next heq =>
    exact .inl ⟨(Std.compare_eq_iff_eq.mp heq).symm, (Option.some.inj hinsert).symm⟩
  · exact .inr hinsert

/-- Take an entry out. -/
def remove (m : BoundedMap κ α) (k : κ) : BoundedMap κ α where
  values := m.values.erase k
  order := m.order.filter (· != k)
  limit := m.limit
  nodup := m.nodup.filter _
  mem_order k' := by
    have hne : compare k k' ≠ .eq ↔ k' ≠ k := by rw [ne_eq, Std.compare_eq_iff_eq, ne_comm]
    rw [List.mem_filter, m.mem_order, Std.TreeMap.mem_erase, bne_iff_ne, and_comm, hne]
  length_le := (List.length_filter_le _ _).trans m.length_le

/-- Change the entry of a key, if there is one. -/
def update (m : BoundedMap κ α) (k : κ) (f : α → α) : BoundedMap κ α where
  values := Table.updateWhere m.values (fun k' _ => k' = k) f
  order := m.order
  limit := m.limit
  nodup := m.nodup
  mem_order k' := by
    rw [m.mem_order, ← Std.TreeMap.isSome_getElem?_iff_mem, ← Std.TreeMap.isSome_getElem?_iff_mem,
      Table.getElem?_updateWhere, Option.isSome_map]
  length_le := m.length_le

/-- Take several entries out. -/
def removeAll (m : BoundedMap κ α) (keys : List κ) : BoundedMap κ α := keys.foldl remove m

end BoundedMap
