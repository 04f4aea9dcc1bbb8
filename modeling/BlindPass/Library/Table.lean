import Mathlib

/-!
# Tables with a primary key

A table is an ordered map from its primary key to the row: at most one row a key, and an
enumeration in key order. Besides the map's own operations a program updates all the rows
that meet a condition, and selects rows in the order of a column; this file adds both, for
any lawful key order.

`Table.Extends R t t'` says that no row of `t` is lost and that each one went through a
change `R` allows; `Table.Evolves R t t'` says that besides there is no new row. Both
compose, so a transaction made of several statements is judged statement by statement.
-/

namespace Table

open Std (TreeMap TransOrd LawfulEqOrd)

variable {κ α : Type*} {rows : List (κ × α)} {column : α → ℕ}

variable {n : ℕ} {β : Type*} {e : κ × α} {r' : α} {R' : κ → α → α → Prop} {q : κ → α → Bool}
  {l : List (κ × α)}

/-- `MAX` of a column, or `n` if there is no row above it. -/
theorem le_foldl_max {f : β → ℕ} {l : List β} : n ≤ l.foldl (fun m b => max m (f b)) n ∧
      ∀ b ∈ l, f b ≤ l.foldl (fun m b => max m (f b)) n := by
  induction l generalizing n with
  | nil => exact ⟨le_rfl, List.forall_mem_nil _⟩
  | cons b rest ih =>
    obtain ⟨hstart, hrest⟩ := ih (n := max n (f b))
    refine ⟨(le_max_left n (f b)).trans hstart, ?_⟩
    intro c hc
    rcases List.mem_cons.mp hc with rfl | hc
    · exact (le_max_right n (f c)).trans hstart
    · exact hrest c hc

theorem foldl_max_cases {f : β → ℕ} {l : List β} :
    l.foldl (fun m b => max m (f b)) n = n ∨ ∃ b ∈ l, l.foldl (fun m b => max m (f b)) n = f b := by
  induction l generalizing n with
  | nil => exact .inl rfl
  | cons b rest ih =>
    rw [List.foldl_cons]
    rcases ih (n := max n (f b)) with hstart | ⟨c, hc, hmax⟩
    · rcases le_total (f b) n with hn | hb
      · exact .inl (hstart.trans (max_eq_left hn))
      · exact .inr ⟨b, .head _, hstart.trans (max_eq_right hb)⟩
    · exact .inr ⟨c, .tail b hc, hmax⟩

theorem values_eq_map [Ord β] (t : TreeMap β α) : t.values = t.toList.map Prod.snd := by
  have hvalues : t.values = t.foldr (fun _ v l => v :: l) [] := rfl
  rw [hvalues, TreeMap.foldr_eq_foldr_toList]
  induction t.toList with
  | nil => rfl
  | cons e rest ih => simp [ih]

/-- `ORDER BY`, for rows already in key order: rows with equal columns stay in that order. -/
def orderBy (rows : List (κ × α)) (column : α → ℕ) : List (κ × α) :=
  rows.insertionSort fun a b => column a.2 ≤ column b.2

theorem mem_orderBy : e ∈ orderBy rows column ↔ e ∈ rows :=
  List.mem_insertionSort _

/-- A batch of some rows has one. -/
theorem exists_mem_batch (hn : 0 < n) (he : e ∈ rows) : ∃ e, e ∈ (orderBy rows column).take n := by
  apply List.length_pos_iff_exists_mem.mp
  have hrows : 0 < (orderBy rows column).length := List.length_pos_of_mem (mem_orderBy.mpr he)
  rw [List.length_take]
  exact lt_min hn hrows

variable [Ord κ]

/-- The row comes first in `ORDER BY column, key`. -/
def Earlier (column : α → ℕ) (a b : κ × α) : Prop :=
  column a.2 < column b.2 ∨ column a.2 = column b.2 ∧ compare a.1 b.1 = .lt

instance (a b : κ × α) : Decidable (Earlier column a b) :=
  inferInstanceAs (Decidable (_ ∨ _))

/-- A row whose key is the least takes its place among rows in order. -/
theorem pairwise_orderedInsert (hkey : ∀ b ∈ rows, compare e.1 b.1 = .lt)
    (hrows : rows.Pairwise (Earlier column)) :
    (rows.orderedInsert (fun a b => column a.2 ≤ column b.2) e).Pairwise (Earlier column) := by
  induction rows with
  | nil => exact List.pairwise_singleton _ _
  | cons b rest ih =>
    obtain ⟨hfirst, hrest⟩ := List.pairwise_cons.mp hrows
    rw [List.orderedInsert_cons]
    split
    · next hle =>
      refine List.pairwise_cons.mpr ⟨fun c hc => ?_, hrows⟩
      have hbound : column e.2 ≤ column c.2 := by
        rcases List.mem_cons.mp hc with rfl | hc
        · exact hle
        · exact hle.trans ((hfirst c hc).elim le_of_lt fun h => h.1.le)
      exact hbound.lt_or_eq.imp_right fun heq => ⟨heq, hkey c hc⟩
    · next hlt =>
      refine List.pairwise_cons.mpr ⟨fun c hc => ?_, ih (fun c hc => hkey c (.tail _ hc)) hrest⟩
      rcases (List.mem_orderedInsert _).mp hc with rfl | hc
      · exact .inl (not_le.mp hlt)
      · exact hfirst c hc

theorem pairwise_orderBy (hrows : rows.Pairwise fun a b => compare a.1 b.1 = .lt) :
    (orderBy rows column).Pairwise (Earlier column) := by
  induction rows with
  | nil => exact .nil
  | cons e rest ih =>
    obtain ⟨hfirst, hrest⟩ := List.pairwise_cons.mp hrows
    exact pairwise_orderedInsert (fun b hb => hfirst b (mem_orderBy.mp hb)) (ih hrest)

/-- A row is in the batch if fewer rows than fit come before it. -/
theorem mem_batch (hrows : rows.Pairwise fun a b => compare a.1 b.1 = .lt) (he : e ∈ rows)
    (hcount : rows.countP (Earlier column · e) < n) : e ∈ (orderBy rows column).take n := by
  have hperm : (orderBy rows column).Perm rows := List.perm_insertionSort _ rows
  have hsorted : (orderBy rows column).Pairwise (Earlier column) := pairwise_orderBy hrows
  rw [← hperm.countP_eq] at hcount
  rw [← List.take_append_drop n (orderBy rows column)] at hsorted hcount
  by_contra hlate
  -- otherwise the whole batch comes before it
  have hdrop : e ∈ (orderBy rows column).drop n := by
    have hmem : e ∈ orderBy rows column := mem_orderBy.mpr he
    rw [← List.take_append_drop n (orderBy rows column)] at hmem
    exact (List.mem_append.mp hmem).resolve_left hlate
  have hbatch : ((orderBy rows column).take n).countP (Earlier column · e) =
      ((orderBy rows column).take n).length := by
    rw [List.countP_eq_length]
    intro e' he'
    exact decide_eq_true ((List.pairwise_append.mp hsorted).2.2 e' he' e hdrop)
  have hlong : n < (orderBy rows column).length := by
    have hpos := List.length_pos_of_mem hdrop
    rw [List.length_drop] at hpos
    omega
  rw [List.countP_append, hbatch, List.length_take] at hcount
  omega

/-- `UPDATE ... SET f WHERE p`. -/
def updateWhere (t : TreeMap κ α) (p : κ → α → Bool) (f : α → α) : TreeMap κ α :=
  t.map fun k r => if p k r then f r else r

/-- `SELECT ... WHERE p`, in key order. -/
def select (t : TreeMap κ α) (p : κ → α → Bool) : List (κ × α) :=
  t.toList.filter fun e => p e.1 e.2

/-- The number of rows an update with the condition `p` affects. -/
def countWhere (t : TreeMap κ α) (p : κ → α → Bool) : ℕ := (select t p).length

theorem countWhere_eq_keys {t : TreeMap κ α} {p : κ → α → Bool} :
    countWhere t p = ((select t p).map Prod.fst).length :=
  (List.length_map _).symm

/-- Every row of `t` is still there and changed as `R` allows. -/
def Extends (R : κ → α → α → Prop) (t t' : TreeMap κ α) : Prop :=
  ∀ k r, t[k]? = some r → ∃ r', t'[k]? = some r' ∧ R k r r'

/-- The two tables have the same keys, and each row changed as `R` allows. -/
def Evolves (R : κ → α → α → Prop) (t t' : TreeMap κ α) : Prop :=
  ∀ k, Option.Rel (R k) t[k]? t'[k]?

variable {t t' t'' : TreeMap κ α} {k : κ} {r : α} {p : κ → α → Bool} {f : α → α}
  {R : κ → α → α → Prop}

theorem Evolves.refl (h : ∀ k r, R k r r) : Evolves R t t := by
  intro k
  rcases t[k]? with _ | r
  · exact .none
  · exact .some (h k r)

/-- A row of the earlier table, in the later one. -/
theorem Evolves.get (h : Evolves R t t') (hr : t[k]? = some r) :
    ∃ r', t'[k]? = some r' ∧ R k r r' := by
  have hk := h k
  rw [hr] at hk
  generalize t'[k]? = after at hk ⊢
  cases hk with
  | some hR => exact ⟨_, rfl, hR⟩

theorem Evolves.related (h : Evolves R t t') (hr : t[k]? = some r) (hr' : t'[k]? = some r') :
    R k r r' := by
  obtain ⟨r'', hr'', hR⟩ := h.get hr
  rwa [Option.mem_unique hr' hr'']

/-- A row of the later table, in the earlier one. -/
theorem Evolves.get_back (h : Evolves R t t') (hr : t'[k]? = some r') :
    ∃ r, t[k]? = some r ∧ R k r r' := by
  have hk := h k
  rw [hr] at hk
  generalize t[k]? = before at hk ⊢
  cases hk with
  | some hR => exact ⟨_, rfl, hR⟩

theorem Evolves.get_none (h : Evolves R t t') (hr : t[k]? = none) : t'[k]? = none := by
  rcases hk : t'[k]? with _ | r'
  · rfl
  · obtain ⟨r, hr', -⟩ := h.get_back hk
    rw [hr] at hr'
    cases hr'

theorem Evolves.extends (h : Evolves R t t') : Extends R t t' := by
  intro k r hr
  exact h.get hr

theorem Evolves.trans (h : ∀ k r r' r'', R k r r' → R k r' r'' → R k r r'')
    (h₁ : Evolves R t t') (h₂ : Evolves R t' t'') : Evolves R t t'' := by
  intro k
  have hk₁ := h₁ k
  have hk₂ := h₂ k
  generalize t[k]? = before, t'[k]? = between, t''[k]? = after at hk₁ hk₂ ⊢
  cases hk₁ with
  | none =>
    cases hk₂ with
    | none => exact .none
  | some hR =>
    cases hk₂ with
    | some hR' => exact .some (h k _ _ _ hR hR')

theorem Evolves.mono (h : Evolves R t t') (himp : ∀ k r r', R k r r' → R' k r r') :
    Evolves R' t t' := by
  intro k
  have hk := h k
  generalize t[k]? = before, t'[k]? = after at hk ⊢
  cases hk with
  | none => exact .none
  | some hR => exact .some (himp k _ _ hR)

theorem Extends.refl (h : ∀ k r, R k r r) : Extends R t t := by
  intro k r hr
  exact ⟨r, hr, h k r⟩

theorem Extends.trans (h : ∀ k r r' r'', R k r r' → R k r' r'' → R k r r'')
    (h₁ : Extends R t t') (h₂ : Extends R t' t'') : Extends R t t'' := by
  intro k r hr
  obtain ⟨r', hr', hR⟩ := h₁ k r hr
  obtain ⟨r'', hr'', hR'⟩ := h₂ k r' hr'
  exact ⟨r'', hr'', h k r r' r'' hR hR'⟩

theorem Extends.mono (h : Extends R t t') (himp : ∀ k r r', R k r r' → R' k r r') :
    Extends R' t t' := by
  intro k r hr
  obtain ⟨r', hr', hR⟩ := h k r hr
  exact ⟨r', hr', himp k r r' hR⟩

variable [TransOrd κ] [LawfulEqOrd κ]

theorem getElem?_updateWhere :
    (updateWhere t p f)[k]? = t[k]?.map fun r => if p k r then f r else r := by
  rw [updateWhere, TreeMap.getElem?_map]

theorem getElem?_insert [DecidableEq κ] {k' : κ} :
    (t.insert k r)[k']? = if k' = k then some r else t[k']? := by
  rw [TreeMap.getElem?_insert]
  simp only [Std.compare_eq_iff_eq]
  exact if_congr eq_comm rfl rfl

/-- A row after an update is a row before it, changed if it met the condition. -/
theorem getElem?_updateWhere_eq_some :
    (updateWhere t p f)[k]? = some r' ↔
      ∃ r, t[k]? = some r ∧ (if p k r then f r else r) = r' := by
  rw [getElem?_updateWhere, Option.map_eq_some_iff]

theorem updateWhere_of_some (hr : t[k]? = some r) (hr' : (updateWhere t p f)[k]? = some r') :
    (if p k r then f r else r) = r' := by
  obtain ⟨r'', hr'', hupdated⟩ := getElem?_updateWhere_eq_some.mp hr'
  rwa [Option.mem_unique hr hr'']

omit [TransOrd κ] [LawfulEqOrd κ] in
theorem size_updateWhere : (updateWhere t p f).size = t.size := by
  rw [← TreeMap.length_toList, updateWhere, TreeMap.toList_map, List.length_map,
    TreeMap.length_toList]

theorem getElem?_filter_eq_some : (t.filter q)[k]? = some r ↔ t[k]? = some r ∧ q k r = true := by
  rw [TreeMap.getElem?_filter', Option.filter_eq_some_iff]

/-- A filter that keeps the number of rows keeps every row. -/
theorem getElem?_filter_of_size_eq (h : (t.filter q).size = t.size) : (t.filter q)[k]? = t[k]? := by
  have hall : ∀ e ∈ t.toList, q e.1 e.2 = true := by
    rw [← TreeMap.length_toList, ← TreeMap.length_toList, TreeMap.toList_filter] at h
    exact List.length_filter_eq_length_iff.mp h
  ext r
  rw [getElem?_filter_eq_some, and_iff_left_iff_imp]
  intro hr
  exact hall (k, r) (TreeMap.mem_toList_iff_getElem?_eq_some.mpr hr)

theorem mem_select : (k, r) ∈ select t p ↔ t[k]? = some r ∧ p k r = true := by
  rw [select, List.mem_filter, TreeMap.mem_toList_iff_getElem?_eq_some]

theorem countWhere_pos : 0 < countWhere t p ↔ ∃ k r, t[k]? = some r ∧ p k r = true := by
  rw [countWhere, List.length_pos_iff_exists_mem]
  constructor
  · rintro ⟨⟨k, r⟩, he⟩
    exact ⟨k, r, mem_select.mp he⟩
  · rintro ⟨k, r, hr⟩
    exact ⟨(k, r), mem_select.mpr hr⟩

/-- Erasing rows removes those keys and no others. -/
theorem getElem?_foldl_erase [DecidableEq κ] {β : Type*} {l : List β} (key : β → κ) :
    (l.foldl (fun t e => t.erase (key e)) t)[k]? = if k ∈ l.map key then none else t[k]? := by
  induction l generalizing t with
  | nil => simp
  | cons e l ih =>
    rw [List.foldl_cons, ih, List.map_cons, TreeMap.getElem?_erase]
    by_cases hrest : k ∈ l.map key
    · rw [if_pos hrest, if_pos (.tail _ hrest)]
    by_cases heq : key e = k
    · rw [if_neg hrest, if_pos (Std.compare_eq_iff_eq.mpr heq),
        if_pos (heq ▸ (.head _))]
    have hnot : ¬k ∈ key e :: l.map key := by
      rw [List.mem_cons]
      rintro (rfl | hmem)
      · exact heq rfl
      · exact hrest hmem
    rw [if_neg hrest, if_neg (fun h => heq (Std.compare_eq_iff_eq.mp h)), if_neg hnot]

theorem getElem?_of_foldl_erase [DecidableEq κ] {β : Type*} {l : List β} {key : β → κ}
    (h : (l.foldl (fun t e => t.erase (key e)) t)[k]? = some r) : t[k]? = some r := by
  rw [getElem?_foldl_erase] at h
  split at h
  · cases h
  · exact h

omit [LawfulEqOrd κ] in
theorem pairwise_compare_select : (select t p).Pairwise fun e e' => compare e.1 e'.1 = .lt :=
  List.Pairwise.filter _ TreeMap.ordered_keys_toList

theorem pairwise_select : (select t p).Pairwise fun e e' => e.1 ≠ e'.1 := by
  refine List.Pairwise.filter _ (TreeMap.distinct_keys_toList.imp ?_)
  intro e e' hne heq
  exact hne (Std.compare_eq_iff_eq.mpr heq)

theorem nodup_keys : ((select t p).map Prod.fst).Nodup :=
  List.pairwise_map.mpr pairwise_select

theorem mem_keys : k ∈ (select t p).map Prod.fst ↔ ∃ r, t[k]? = some r ∧ p k r = true := by
  simp only [List.mem_map, Prod.exists, exists_and_right, exists_eq_right, mem_select]

section Counting

variable {p' : κ → α → Bool}

/-- A table has no more rows of a kind than one that has a row for each of their keys. -/
theorem countWhere_le (h : ∀ k r', t'[k]? = some r' → p' k r' = true →
    ∃ r, t[k]? = some r ∧ p k r = true) : countWhere t' p' ≤ countWhere t p := by
  rw [countWhere_eq_keys, countWhere_eq_keys]
  refine (List.subperm_of_subset nodup_keys ?_).length_le
  intro k hk
  obtain ⟨r', hr', hp'⟩ := mem_keys.mp hk
  exact mem_keys.mpr (h k r' hr' hp')

/-- It has fewer if one of the keys is not among them. -/
theorem countWhere_lt (h : ∀ k r', t'[k]? = some r' → p' k r' = true →
    ∃ r, t[k]? = some r ∧ p k r = true)
    (hlost : ∃ k r, t[k]? = some r ∧ p k r = true ∧ ∀ r', t'[k]? = some r' → p' k r' = false) :
    countWhere t' p' < countWhere t p := by
  obtain ⟨k, r, hr, hp, hnot⟩ := hlost
  have hfresh : k ∉ (select t' p').map Prod.fst := by
    intro hk
    obtain ⟨r', hr', hp'⟩ := mem_keys.mp hk
    rw [hnot r' hr'] at hp'
    cases hp'
  have hsub : k :: (select t' p').map Prod.fst ⊆ (select t p).map Prod.fst := by
    intro k' hk'
    rcases List.mem_cons.mp hk' with rfl | hk'
    · exact mem_keys.mpr ⟨r, hr, hp⟩
    · obtain ⟨r', hr', hp'⟩ := mem_keys.mp hk'
      exact mem_keys.mpr (h k' r' hr' hp')
  have hlength := (List.subperm_of_subset (List.nodup_cons.mpr ⟨hfresh, nodup_keys⟩) hsub).length_le
  rw [countWhere_eq_keys, countWhere_eq_keys]
  exact hlength

end Counting

theorem extends_updateWhere (hrefl : ∀ k r, R k r r) (h : ∀ k r, p k r = true → R k r (f r)) :
    Extends R t (updateWhere t p f) := by
  intro k r hr
  refine ⟨if p k r then f r else r, getElem?_updateWhere_eq_some.mpr ⟨r, hr, rfl⟩, ?_⟩
  by_cases hp : p k r = true
  · rw [if_pos hp]
    exact h k r hp
  · rw [if_neg hp]
    exact hrefl k r

theorem evolves_updateWhere (hrefl : ∀ k r, R k r r)
    (h : ∀ k r, t[k]? = some r → p k r = true → R k r (f r)) : Evolves R t (updateWhere t p f) := by
  intro k
  rw [getElem?_updateWhere]
  rcases hk : t[k]? with _ | r
  · exact .none
  refine .some ?_
  change R k r (if p k r then f r else r)
  by_cases hp : p k r = true
  · rw [if_pos hp]
    exact h k r hk hp
  · rw [if_neg hp]
    exact hrefl k r

theorem extends_insert (hrefl : ∀ k r, R k r r) (hnew : t[k]? = none) :
    Extends R t (t.insert k r) := by
  intro k' r' hr'
  refine ⟨r', ?_, hrefl k' r'⟩
  rw [TreeMap.getElem?_insert, if_neg]
  · exact hr'
  intro hk
  rw [Std.compare_eq_iff_eq] at hk
  rw [← hk, hnew] at hr'
  exact Option.some_ne_none r' hr'.symm

/-! ### Sums over a table -/

section Total

variable {f : κ → α → ℕ}

/-- The sum of a column. -/
def total (t : TreeMap κ α) (f : κ → α → ℕ) : ℕ := (t.toList.map fun e => f e.1 e.2).sum

theorem total_insert [DecidableEq κ] (hr : t[k]? = none) : total (t.insert k r) f = f k r + total t f := by
  have hperm := TreeMap.toList_insert_perm (t := t) (k := k) (v := r)
  have hall : t.toList.filter (fun e => decide ¬(k == e.1) = true) = t.toList := by
    rw [List.filter_eq_self]
    intro e he
    have hne : k ≠ e.1 := by
      rintro rfl
      rw [TreeMap.mem_toList_iff_getElem?_eq_some, hr] at he
      cases he
    simpa using hne
  rw [hall] at hperm
  rw [total, (hperm.map _).sum_nat, List.map_cons, List.sum_cons, total]

/-- A row that replaces another one counts in its place. -/
theorem total_replace [DecidableEq κ] {r₀ : α} (hr : t[k]? = some r₀) :
    total (t.insert k r) f + f k r₀ = total t f + f k r := by
  have hperm := TreeMap.toList_insert_perm (t := t) (k := k) (v := r)
  have hsame := TreeMap.toList_insert_perm (t := t) (k := k) (v := r₀)
  have hself : (t.insert k r₀).toList = t.toList := by
    rw [← TreeMap.equiv_iff_toList_eq]
    apply TreeMap.Equiv.of_forall_constGet?_eq
    intro k'
    have hget : (t.insert k r₀)[k']? = t[k']? := by
      rw [getElem?_insert]
      by_cases hk : k' = k
      · rw [if_pos hk, hk, hr]
      · rw [if_neg hk]
    exact hget
  rw [hself] at hsame
  rw [total, total, (hperm.map _).sum_nat, (hsame.map _).sum_nat]
  simp only [List.map_cons, List.sum_cons]
  omega

omit [TransOrd κ] [LawfulEqOrd κ] in
theorem total_updateWhere {g : α → α} (h : ∀ k r, p k r = true → f k (g r) = f k r) :
    total (updateWhere t p g) f = total t f := by
  rw [total, updateWhere, TreeMap.toList_map, List.map_map, total]
  congr 1
  apply List.map_congr_left
  intro e _
  by_cases hp : p e.1 e.2 = true
  · simp [hp, h]
  · simp [hp]

omit [TransOrd κ] [LawfulEqOrd κ] in
theorem total_filter_le : total (t.filter q) f ≤ total t f := by
  rw [total, TreeMap.toList_filter, total]
  induction t.toList with
  | nil => exact le_rfl
  | cons e rest ih =>
    rw [List.filter_cons, List.map_cons, List.sum_cons]
    split
    · rw [List.map_cons, List.sum_cons]
      exact Nat.add_le_add_left ih _
    · exact ih.trans (Nat.le_add_left _ _)

theorem toList_congr {t' : TreeMap κ α} (h : ∀ k : κ, t[k]? = t'[k]?) : t.toList = t'.toList := by
  rw [← TreeMap.equiv_iff_toList_eq]
  apply TreeMap.Equiv.of_forall_constGet?_eq
  intro k
  exact h k

theorem total_erase [DecidableEq κ] (hr : t[k]? = some r) :
    total t f = f k r + total (t.erase k) f := by
  have hnone : (t.erase k)[k]? = none := by
    rw [TreeMap.getElem?_erase, if_pos Std.ReflCmp.compare_self]
  have hsame : ((t.erase k).insert k r).toList = t.toList := by
    apply toList_congr
    intro k'
    rw [getElem?_insert]
    by_cases hk : k' = k
    · rw [if_pos hk, hk, hr]
    · rw [if_neg hk, TreeMap.getElem?_erase,
        if_neg fun h => hk (Std.compare_eq_iff_eq.mp h).symm]
  rw [← total_insert hnone, total, total, hsame]

/-- A table counts no more than one with a row for each of its keys that counts as much. -/
theorem total_le [DecidableEq κ] {t' : TreeMap κ β} {g : κ → β → ℕ}
    (h : ∀ (k : κ) (r : α), t[k]? = some r → ∃ r', t'[k]? = some r' ∧ f k r ≤ g k r') :
    total t f ≤ total t' g := by
  -- the rows are taken out of the larger table one by one
  have hlist : ∀ (l : List (κ × α)) (t' : TreeMap κ β), (l.map Prod.fst).Nodup →
      (∀ e ∈ l, ∃ r', t'[e.1]? = some r' ∧ f e.1 e.2 ≤ g e.1 r') →
        (l.map fun e => f e.1 e.2).sum ≤ total t' g := by
    intro l
    induction l with
    | nil => exact fun _ _ _ => zero_le
    | cons e rest ih =>
      intro t' hnodup hrows
      rw [List.map_cons, List.nodup_cons] at hnodup
      obtain ⟨r', hr', hle⟩ := hrows e (.head _)
      have hrest := ih (t'.erase e.1) hnodup.2 fun e' he' => by
        obtain ⟨r'', hr'', hle''⟩ := hrows e' (.tail e he')
        refine ⟨r'', ?_, hle''⟩
        rw [TreeMap.getElem?_erase, if_neg, hr'']
        intro heq
        rw [Std.compare_eq_iff_eq] at heq
        exact hnodup.1 (heq ▸ List.mem_map_of_mem he')
      rw [List.map_cons, List.sum_cons, total_erase hr']
      exact Nat.add_le_add hle hrest
  apply hlist t.toList t'
  · rw [List.nodup_iff_pairwise_ne, List.pairwise_map]
    apply TreeMap.distinct_keys_toList.imp
    intro e e' hne heq
    exact hne (Std.compare_eq_iff_eq.mpr heq)
  · intro e he
    exact h e.1 e.2 (TreeMap.mem_toList_iff_getElem?_eq_some.mp he)

omit [TransOrd κ] [LawfulEqOrd κ] in
theorem total_add (t : TreeMap κ α) (f : κ → α → ℕ) (n : ℕ) :
    total t (fun k r => f k r + n) = total t f + t.size * n := by
  have hlist : ∀ l : List (κ × α),
      (l.map fun e => f e.1 e.2 + n).sum = (l.map fun e => f e.1 e.2).sum + l.length * n := by
    intro l
    induction l with
    | nil => simp
    | cons e rest ih =>
      simp only [List.map_cons, List.sum_cons, List.length_cons, ih, Nat.succ_mul]
      omega
  rw [total, total, hlist, TreeMap.length_toList]

omit [TransOrd κ] [LawfulEqOrd κ] in
theorem total_const (t : TreeMap κ α) (n : ℕ) : total t (fun _ _ => n) = t.size * n := by
  have hzero : total t (fun _ _ => 0) = 0 := by
    rw [total]
    simp
  have hadd := total_add t (fun _ _ => 0) n
  simp only [Nat.zero_add, hzero] at hadd
  exact hadd

/-- A table whose keys are all in another is not larger. -/
theorem size_le_of_keys [DecidableEq κ] {t' : TreeMap κ β}
    (h : ∀ k, t.contains k = true → t'.contains k = true) : t.size ≤ t'.size := by
  have hle : total t (fun _ _ => 1) ≤ total t' fun _ _ => 1 := by
    apply total_le
    intro k r hr
    have hk : t'.contains k = true := h k (by rw [TreeMap.contains_eq_isSome_getElem?, hr]; rfl)
    rw [TreeMap.contains_eq_isSome_getElem?] at hk
    obtain ⟨r', hr'⟩ := Option.isSome_iff_exists.mp hk
    exact ⟨r', hr', le_refl 1⟩
  rwa [total_const, total_const, Nat.mul_one, Nat.mul_one] at hle

end Total

end Table
