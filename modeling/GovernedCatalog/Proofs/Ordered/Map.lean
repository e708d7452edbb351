import GovernedCatalog.Ordered.Map
import Mathlib.Data.List.Nodup

/-!
# Look-ups in sorted maps

The look-up is the view of a `SortedMap`: maps with the same look-ups are equal,
and every operation on maps is described by what it does to the look-ups.  The
entries, keys and values are those of the look-ups.
-/

namespace GovernedCatalog

theorem isLE_total (cmp : α → α → Ordering) [Std.OrientedCmp cmp] (a b : α) :
    ((cmp a b).isLE || (cmp b a).isLE) = true := by
  have hswap : cmp b a = (cmp a b).swap := Std.OrientedCmp.eq_swap
  rw [hswap]
  cases cmp a b <;> rfl

end GovernedCatalog

namespace GovernedCatalog.SortedMap

variable {κ : Type u} {α : Type v} {β : Type w} [Ord κ]

theorem values_filter_mapValues (m : SortedMap κ α) (p : κ → α → Bool)
    (f : κ → α → β) :
    ((m.filter p).mapValues f).values =
      (m.entries.filter fun e => p e.1 e.2).map fun e => f e.1 e.2 :=
  List.map_map

theorem values_mapValues_filter (m : SortedMap κ α) (f : κ → α → β)
    (p : κ → β → Bool) :
    ((m.mapValues f).filter p).values =
      (m.entries.filter fun e => p e.1 (f e.1 e.2)).map fun e => f e.1 e.2 := by
  change ((m.entries.map _).filter _).map _ = _
  rw [List.filter_map, List.map_map]
  rfl

theorem mapValues_id (m : SortedMap κ α) : (m.mapValues fun _ a => a) = m :=
  ext (List.map_id _)

theorem contains_iff {m : SortedMap κ α} {k : κ} :
    m.contains k = true ↔ ∃ a, m.get? k = some a := by
  simp [contains, Option.isSome_iff_exists]

@[simp] theorem get?_empty (k : κ) : (empty : SortedMap κ α).get? k = none := rfl

@[simp] theorem get?_emptyCollection (k : κ) :
    (∅ : SortedMap κ α).get? k = none := rfl

theorem get?_of_isEmpty {m : SortedMap κ α} (h : m.isEmpty = true) (k : κ) :
    m.get? k = none := by
  unfold get?
  rw [List.isEmpty_iff.1 h]
  rfl

theorem isEmpty_of_get? {m : SortedMap κ α} {k : κ} {a : α}
    (h : m.get? k = some a) : m.isEmpty = false := by
  cases hempty : m.isEmpty with
  | true =>
      rw [get?_of_isEmpty hempty] at h
      cases h
  | false => rfl

section Lawful

variable [Std.LawfulEqOrd κ]

theorem lookup_eq_some_iff
    {entries : List (κ × α)} (hinc : KeysIncrease entries) (k : κ) (a : α) :
    lookup k entries = some a ↔ (k, a) ∈ entries := by
  induction entries with
  | nil => simp [lookup]
  | cons head rest ih =>
      obtain ⟨k', a'⟩ := head
      have hhead : ∀ e ∈ rest, compare k' e.1 = .lt :=
        fun _ he => List.rel_of_pairwise_cons hinc he
      have hrest := ih (List.Pairwise.of_cons hinc)
      by_cases hk : k = k'
      · subst hk
        have hnot : (k, a) ∉ rest := by
          intro hmem
          have hlt : compare k k = .lt := hhead _ hmem
          rw [Std.ReflOrd.compare_self] at hlt
          cases hlt
        simp [lookup, Std.ReflOrd.compare_self, hnot, eq_comm]
      · have hne : compare k k' ≠ .eq := fun h =>
          hk (Std.LawfulEqOrd.eq_of_compare h)
        unfold lookup
        split
        · contradiction
        · simp [hrest, hk]

theorem get?_eq_some_iff {m : SortedMap κ α} {k : κ} {a : α} :
    m.get? k = some a ↔ (k, a) ∈ m.entries :=
  lookup_eq_some_iff m.increasing k a

theorem isEmpty_iff {m : SortedMap κ α} :
    m.isEmpty = true ↔ ∀ k, m.get? k = none := by
  constructor
  · exact get?_of_isEmpty
  · intro h
    refine List.isEmpty_iff.2 (List.eq_nil_iff_forall_not_mem.2 ?_)
    rintro ⟨k, a⟩ hmem
    rw [← get?_eq_some_iff, h] at hmem
    cases hmem

theorem exists_of_isEmpty_eq_false {m : SortedMap κ α}
    (h : m.isEmpty = false) : ∃ k a, m.get? k = some a := by
  obtain ⟨⟨k, a⟩, hmem⟩ :=
    List.exists_mem_of_ne_nil _ (List.isEmpty_eq_false_iff.1 h)
  exact ⟨k, a, get?_eq_some_iff.2 hmem⟩

theorem mem_values_iff {m : SortedMap κ α} {a : α} :
    a ∈ m.values ↔ ∃ k, m.get? k = some a := by
  simp [values, get?_eq_some_iff]

theorem mem_keys_iff {m : SortedMap κ α} {k : κ} :
    k ∈ m.keys ↔ ∃ a, m.get? k = some a := by
  simp [keys, get?_eq_some_iff]

@[simp] theorem get?_filter (m : SortedMap κ α) (p : κ → α → Bool) (k : κ) :
    (m.filter p).get? k = (m.get? k).filter (p k) := by
  ext a
  rw [Option.filter_eq_some_iff, get?_eq_some_iff, get?_eq_some_iff]
  simp [filter]

theorem get?_mapValues (m : SortedMap κ α) (f : κ → α → β) (k : κ) :
    (m.mapValues f).get? k = (m.get? k).map (f k) := by
  ext b
  rw [Option.map_eq_some_iff, get?_eq_some_iff]
  simp only [mapValues, List.mem_map, Prod.mk.injEq, Prod.exists,
    get?_eq_some_iff]
  constructor
  · rintro ⟨_, a, hmem, rfl, rfl⟩
    exact ⟨a, hmem, rfl⟩
  · rintro ⟨a, hmem, rfl⟩
    exact ⟨k, a, hmem, rfl, rfl⟩

theorem compare_beq_eq [DecidableEq κ] (k k' : κ) :
    (compare k k' == .eq) = decide (k' = k) := by
  rw [Bool.eq_iff_iff, beq_iff_eq, Std.LawfulEqOrd.compare_eq_iff_eq,
    decide_eq_true_iff, eq_comm]

@[simp] theorem get?_erase [DecidableEq κ] (m : SortedMap κ α) (k k' : κ) :
    (m.erase k).get? k' = if k' = k then none else m.get? k' := by
  have hne : (compare k k' != .eq) = !decide (k' = k) := by
    rw [← compare_beq_eq]
    rfl
  simp only [erase, get?_filter, hne]
  by_cases hk : k' = k <;> cases m.get? k' <;> simp [hk]

@[simp] theorem get?_modify [DecidableEq κ] (m : SortedMap κ α) (k k' : κ)
    (f : α → α) :
    (m.modify k f).get? k' = if k' = k then (m.get? k).map f else m.get? k' := by
  rw [modify, get?_mapValues]
  simp only [compare_beq_eq, decide_eq_true_eq]
  by_cases hk : k' = k <;> simp [hk]

theorem lookup_insertEntry [DecidableEq κ] (k k' : κ) (a : α)
    (entries : List (κ × α)) :
    lookup k' (insertEntry k a entries) =
      if k' = k then some a else lookup k' entries := by
  induction entries with
  | nil =>
      by_cases hk : k' = k
      · simp [insertEntry, lookup, hk, Std.ReflOrd.compare_self]
      · have hne : compare k' k ≠ .eq := fun h =>
          hk (Std.LawfulEqOrd.eq_of_compare h)
        simp only [insertEntry, lookup, hk, if_false]
  | cons head rest ih =>
      obtain ⟨j, b⟩ := head
      by_cases hk : k' = k
      · subst hk
        cases hcmp : compare k' j <;>
          simp [insertEntry, lookup, hcmp, ih, Std.ReflOrd.compare_self]
      · have hne : compare k' k ≠ .eq := fun h =>
          hk (Std.LawfulEqOrd.eq_of_compare h)
        cases hcmp : compare k j with
        | lt =>
            simp only [insertEntry, hcmp, lookup, hk, if_false]
        | eq =>
            have hkj := Std.LawfulEqOrd.eq_of_compare hcmp
            subst hkj
            simp only [insertEntry, hcmp, lookup, hk, if_false]
        | gt =>
            simp only [insertEntry, hcmp, lookup, ih, hk, if_false]

theorem nodup_keys (m : SortedMap κ α) : m.keys.Nodup := by
  refine List.pairwise_map.2 (List.Pairwise.imp ?_ m.increasing)
  intro a b hlt heq
  rw [heq, Std.ReflOrd.compare_self] at hlt
  cases hlt

/-- What the values of a map yield is listed once if each item tells the key of
its value. -/
theorem nodup_flatMap {m : SortedMap κ α} {g : α → List β} (f : β → κ)
    (hkey : ∀ {k a}, m.get? k = some a → ∀ b ∈ g a, f b = k)
    (hnodup : ∀ {k a}, m.get? k = some a → (g a).Nodup) :
    (m.values.flatMap g).Nodup := by
  unfold values
  rw [List.flatMap_map, List.nodup_flatMap]
  constructor
  · rintro ⟨k, a⟩ hmem
    exact hnodup (get?_eq_some_iff.2 hmem)
  · refine List.Pairwise.imp_of_mem ?_ m.increasing
    rintro ⟨k, a⟩ ⟨k', a'⟩ hmem hmem' hlt b hb hb'
    have heq : k = k' :=
      (hkey (get?_eq_some_iff.2 hmem) b hb).symm.trans
        (hkey (get?_eq_some_iff.2 hmem') b hb')
    rw [heq, Std.ReflOrd.compare_self] at hlt
    cases hlt

theorem nodup_map {m : SortedMap κ α} {g : α → β} (f : β → κ)
    (hkey : ∀ {k a}, m.get? k = some a → f (g a) = k) :
    (m.values.map g).Nodup := by
  rw [List.map_eq_flatMap]
  refine nodup_flatMap f (fun hget b hb => ?_) fun _ => List.nodup_singleton _
  rw [List.mem_singleton.1 hb]
  exact hkey hget

end Lawful

/-- An insertion enters its entry, or takes the place of another. -/
theorem insertEntry_perm_or (k : κ) (a : α) (entries : List (κ × α)) :
    (insertEntry k a entries).Perm ((k, a) :: entries) ∨
      (insertEntry k a entries).length = entries.length := by
  induction entries with
  | nil => exact Or.inl (.refl _)
  | cons head rest ih =>
      obtain ⟨k', a'⟩ := head
      unfold insertEntry
      cases compare k k' with
      | lt => exact Or.inl (.refl _)
      | eq => exact Or.inr rfl
      | gt =>
          rcases ih with hperm | hlength
          · exact Or.inl ((hperm.cons (k', a')).trans (.swap ..))
          · exact Or.inr (congrArg (· + 1) hlength)

section Ordered

variable [Std.TransOrd κ]

theorem size_foldl_insert_le (m : SortedMap κ α) (entries : List (κ × α)) :
    (entries.foldl (fun n e => n.insert e.1 e.2) m).size ≤
      m.size + entries.length := by
  induction entries generalizing m with
  | nil => simp
  | cons e rest ih =>
      have hinsert : (m.insert e.1 e.2).size ≤ m.size + 1 := by
        rcases insertEntry_perm_or e.1 e.2 m.entries with hperm | hlength
        · exact Nat.le_of_eq hperm.length_eq
        · exact Nat.le_succ_of_le (Nat.le_of_eq hlength)
      have hrest := ih (m.insert e.1 e.2)
      rw [List.foldl_cons, List.length_cons]
      omega

/-- If no insertion takes the place of an entry, all entries are there. -/
theorem foldl_insert_perm {m : SortedMap κ α} {entries : List (κ × α)}
    (h : (entries.foldl (fun n e => n.insert e.1 e.2) m).size =
      m.size + entries.length) :
    (entries.foldl (fun n e => n.insert e.1 e.2) m).entries.Perm
      (m.entries ++ entries) := by
  induction entries generalizing m with
  | nil => simp
  | cons e rest ih =>
      rw [List.foldl_cons] at h ⊢
      have hrest := size_foldl_insert_le (m.insert e.1 e.2) rest
      rw [List.length_cons] at h
      rcases insertEntry_perm_or e.1 e.2 m.entries with hperm | hlength
      · have hsize : (m.insert e.1 e.2).size = m.size + 1 := hperm.length_eq
        have hentries := ih (m := m.insert e.1 e.2) (by omega)
        exact hentries.trans
          ((hperm.append_right rest).trans List.perm_middle.symm)
      · have hsize : (m.insert e.1 e.2).size = m.size := hlength
        omega

theorem keysIncrease_ext
    {l l' : List (κ × α)} (hl : KeysIncrease l) (hl' : KeysIncrease l')
    (h : ∀ e, e ∈ l ↔ e ∈ l') : l = l' := by
  have hnodup : ∀ {l : List (κ × α)}, KeysIncrease l → l.Nodup := by
    intro l hinc
    refine List.Pairwise.imp ?_ hinc
    rintro a b hlt rfl
    rw [Std.ReflOrd.compare_self] at hlt
    cases hlt
  have hperm : l.Perm l' :=
    (List.perm_ext_iff_of_nodup (hnodup hl) (hnodup hl')).2 h
  refine hperm.eq_of_pairwise ?_ hl hl'
  intro a b _ _ hab hba
  rw [Std.OrientedCmp.gt_iff_lt.2 hba] at hab
  cases hab

variable [Std.LawfulEqOrd κ]

/-- Maps with the same look-ups are equal. -/
theorem ext_get? {m n : SortedMap κ α} (h : ∀ k, m.get? k = n.get? k) :
    m = n := by
  refine ext (keysIncrease_ext m.increasing n.increasing fun e => ?_)
  obtain ⟨k, a⟩ := e
  rw [← get?_eq_some_iff, ← get?_eq_some_iff, h]

@[simp] theorem get?_insert [DecidableEq κ] (m : SortedMap κ α) (k k' : κ)
    (a : α) : (m.insert k a).get? k' = if k' = k then some a else m.get? k' :=
  lookup_insertEntry k k' a m.entries

@[simp] theorem get?_getOrInsert [DecidableEq κ] (m : SortedMap κ α)
    (k k' : κ) (fresh : α) :
    (m.getOrInsert k fresh).get? k' =
      if k' = k then some ((m.get? k).getD fresh) else m.get? k' := by
  unfold getOrInsert contains
  by_cases hk : k' = k
  · subst hk
    cases hget : m.get? k' <;> simp [hget]
  · cases hget : m.get? k <;> simp [hk]

theorem erase_insert_of_none [DecidableEq κ] {m : SortedMap κ α} {k : κ}
    (h : m.get? k = none) (a : α) : (m.insert k a).erase k = m := by
  refine ext_get? fun k' => ?_
  rw [get?_erase, get?_insert]
  by_cases hk : k' = k
  · rw [if_pos hk, hk, h]
  · rw [if_neg hk, if_neg hk]

theorem getOrInsert_eq_insert [DecidableEq κ] (m : SortedMap κ α) (k : κ)
    (fresh : α) : m.getOrInsert k fresh = m.insert k ((m.get? k).getD fresh) := by
  refine ext_get? fun k' => ?_
  rw [get?_getOrInsert, get?_insert]

theorem get?_foldl_insert [DecidableEq κ] {entries : List (κ × α)}
    (h : KeysIncrease entries) (m : SortedMap κ α) (k : κ) :
    (entries.foldl (fun n e => n.insert e.1 e.2) m).get? k =
      (lookup k entries).or (m.get? k) := by
  induction entries generalizing m with
  | nil => simp [lookup]
  | cons head rest ih =>
      obtain ⟨k', a⟩ := head
      have hrest := List.Pairwise.of_cons h
      rw [List.foldl_cons, ih hrest, get?_insert]
      by_cases hk : k = k'
      · subst hk
        have hnone : lookup k rest = none := by
          refine Option.eq_none_iff_forall_ne_some.2 fun a' ha' => ?_
          have hmem := (lookup_eq_some_iff hrest k a').1 ha'
          have hlt : compare k k = .lt := List.rel_of_pairwise_cons h hmem
          rw [Std.ReflOrd.compare_self] at hlt
          cases hlt
        simp [lookup, hnone, Std.ReflOrd.compare_self]
      · have hne : compare k k' ≠ .eq := fun h =>
          hk (Std.LawfulEqOrd.eq_of_compare h)
        rw [if_neg hk]
        simp only [lookup]

@[simp] theorem get?_overlay [DecidableEq κ] (m overrides : SortedMap κ α)
    (k : κ) :
    (m.overlay overrides).get? k = (overrides.get? k).or (m.get? k) :=
  get?_foldl_insert overrides.increasing m k

omit [Std.LawfulEqOrd κ] in
@[simp] theorem overlay_empty (m : SortedMap κ α) : m.overlay ∅ = m := rfl

theorem get?_modify_getOrInsert [DecidableEq κ] (m : SortedMap κ α) (k k' : κ)
    (fresh : α) (f : α → α) :
    ((m.getOrInsert k fresh).modify k f).get? k' =
      if k' = k then some (f ((m.get? k).getD fresh)) else m.get? k' := by
  by_cases hk : k' = k <;> simp [hk]

/-! ## Maps from lists of entries -/

omit [Std.LawfulEqOrd κ] in
theorem mem_of_mem_foldl_insert {m : SortedMap κ α} {entries : List (κ × α)}
    {e : κ × α}
    (he : e ∈ (entries.foldl (fun n e => n.insert e.1 e.2) m).entries) :
    e ∈ m.entries ∨ e ∈ entries := by
  induction entries generalizing m with
  | nil => exact Or.inl he
  | cons first rest ih =>
      rcases ih he with he | he
      · rcases mem_insertEntry he with rfl | he
        · exact Or.inr List.mem_cons_self
        · exact Or.inl he
      · exact Or.inr (List.mem_cons_of_mem first he)

theorem get?_foldl_insert_of_nodup [DecidableEq κ] {entries : List (κ × α)}
    (h : (entries.map Prod.fst).Nodup) {m : SortedMap κ α} {k : κ} {a : α} :
    (entries.foldl (fun n e => n.insert e.1 e.2) m).get? k = some a ↔
      (k, a) ∈ entries ∨ k ∉ entries.map Prod.fst ∧ m.get? k = some a := by
  induction entries generalizing m with
  | nil => simp
  | cons e rest ih =>
      obtain ⟨hfresh, hrest⟩ := List.nodup_cons.1 h
      rw [List.foldl_cons, ih hrest, get?_insert]
      by_cases hk : k = e.1
      · subst hk
        have hnew : (e.1, a) ∉ rest := fun hmem =>
          hfresh (List.mem_map.2 ⟨_, hmem, rfl⟩)
        simp [hnew, hfresh, Prod.ext_iff, eq_comm]
      · simp [hk, Prod.ext_iff]

theorem get?_ofList [DecidableEq κ] {entries : List (κ × α)}
    (h : (entries.map Prod.fst).Nodup) {k : κ} {a : α} :
    (ofList entries).get? k = some a ↔ (k, a) ∈ entries := by
  unfold ofList
  rw [get?_foldl_insert_of_nodup h]
  simp

theorem get?_ofList_single [DecidableEq κ] (k : κ) (a : α) :
    (ofList [(k, a)]).get? k = some a :=
  (get?_insert ..).trans (if_pos rfl)

theorem ofList_of_perm [DecidableEq κ] {entries : List (κ × α)}
    {m : SortedMap κ α} (h : entries.Perm m.entries) : ofList entries = m := by
  have hnodup : (entries.map Prod.fst).Nodup :=
    (h.map Prod.fst).nodup_iff.2 m.nodup_keys
  refine ext_get? fun k => Option.ext fun a => ?_
  rw [get?_ofList hnodup, h.mem_iff, get?_eq_some_iff]

theorem ofList_entries [DecidableEq κ] (m : SortedMap κ α) :
    ofList m.entries = m :=
  ofList_of_perm (.refl _)

theorem entries_ofList_perm [DecidableEq κ] {entries : List (κ × α)}
    (h : (entries.map Prod.fst).Nodup) :
    (ofList entries).entries.Perm entries := by
  have hkeys := (ofList entries).nodup_keys
  refine (List.perm_ext_iff_of_nodup (.of_map _ hkeys) (.of_map _ h)).2 ?_
  rintro ⟨k, a⟩
  rw [← get?_eq_some_iff, get?_ofList h]

omit [Std.TransOrd κ] in
/-- A map lists its values once each if no two keys have the same value. -/
theorem nodup_values_iff {m : SortedMap κ α} :
    m.values.Nodup ↔
      ∀ k k' a, m.get? k = some a → m.get? k' = some a → k = k' := by
  have hentries : m.entries.Nodup := .of_map _ m.nodup_keys
  unfold values
  rw [List.nodup_map_iff_inj_on hentries]
  constructor
  · intro h k k' a hk hk'
    exact congrArg Prod.fst
      (h _ (get?_eq_some_iff.1 hk) _ (get?_eq_some_iff.1 hk') rfl)
  · rintro h ⟨k, a⟩ he ⟨k', a'⟩ he' rfl
    exact Prod.ext (h k k' a (get?_eq_some_iff.2 he) (get?_eq_some_iff.2 he')) rfl

end Ordered

end GovernedCatalog.SortedMap

namespace GovernedCatalog.SortedMap

/-! ## Maps with a property of all entries

What holds of every entry of a map is kept by every operation that puts in only
such entries. -/

variable {κ : Type u} {α : Type v} {β : Type w} [Ord κ]

/-- Every entry has the property. -/
def All (m : SortedMap κ α) (P : κ → α → Prop) : Prop :=
  ∀ (k : κ) (a : α), m.get? k = some a → P k a

variable {m : SortedMap κ α} {P : κ → α → Prop}

theorem all_empty : (∅ : SortedMap κ α).All P := fun _ _ h => by cases h

theorem All.imp (hm : m.All P) {Q : κ → α → Prop}
    (h : ∀ k a, P k a → Q k a) : m.All Q :=
  fun k a hget => h k a (hm k a hget)

variable [Std.LawfulEqOrd κ]

theorem all_iff_values {P : α → Prop} :
    (m.All fun _ a => P a) ↔ ∀ a ∈ m.values, P a := by
  simp only [mem_values_iff]
  exact ⟨fun h a ⟨k, hget⟩ => h k a hget, fun h k a hget => h a ⟨k, hget⟩⟩

theorem all_iff_keys {P : κ → Prop} :
    (m.All fun k _ => P k) ↔ ∀ k ∈ m.keys, P k := by
  simp only [mem_keys_iff]
  exact ⟨fun h k ⟨a, hget⟩ => h k a hget, fun h k a hget => h k ⟨a, hget⟩⟩

theorem all_mapValues {f : κ → α → β} {Q : κ → β → Prop}
    (hf : ∀ k a, Q k (f k a)) : (m.mapValues f).All Q := by
  intro k b hget
  rw [get?_mapValues] at hget
  obtain ⟨a, _, rfl⟩ := Option.map_eq_some_iff.1 hget
  exact hf k a

namespace All

variable (hm : m.All P)

include hm

theorem filter (p : κ → α → Bool) : (m.filter p).All P := by
  intro k a hget
  rw [get?_filter] at hget
  exact hm k a (Option.filter_eq_some_iff.1 hget).1

theorem erase (k : κ) : (m.erase k).All P := hm.filter _

theorem mapValues {f : κ → α → β} {Q : κ → β → Prop}
    (hf : ∀ k a, P k a → Q k (f k a)) : (m.mapValues f).All Q := by
  intro k b hget
  rw [get?_mapValues] at hget
  obtain ⟨a, ha, rfl⟩ := Option.map_eq_some_iff.1 hget
  exact hf k a (hm k a ha)

variable [DecidableEq κ]

theorem modify {k : κ} {f : α → α} (hf : ∀ a, P k a → P k (f a)) :
    (m.modify k f).All P := by
  intro k' a hget
  rw [get?_modify] at hget
  by_cases hk : k' = k
  · subst hk
    rw [if_pos rfl] at hget
    obtain ⟨b, hb, rfl⟩ := Option.map_eq_some_iff.1 hget
    exact hf b (hm k' b hb)
  · rw [if_neg hk] at hget
    exact hm k' _ hget

variable [Std.TransOrd κ]

theorem insert {k : κ} {a : α} (ha : P k a) : (m.insert k a).All P := by
  intro k' b hget
  rw [get?_insert] at hget
  by_cases hk : k' = k
  · subst hk
    rw [if_pos rfl] at hget
    cases hget
    exact ha
  · rw [if_neg hk] at hget
    exact hm k' _ hget

theorem getOrInsert {k : κ} {fresh : α} (hfresh : P k fresh) :
    (m.getOrInsert k fresh).All P := by
  unfold SortedMap.getOrInsert
  by_cases hcontains : m.contains k = true
  · rw [if_pos hcontains]
    exact hm
  · rw [if_neg hcontains]
    exact hm.insert hfresh

theorem overlay {overrides : SortedMap κ α} (h : overrides.All P) :
    (m.overlay overrides).All P := by
  intro k a hget
  rw [get?_overlay] at hget
  rcases Option.or_eq_some_iff.1 hget with hget | ⟨_, hget⟩
  · exact h k a hget
  · exact hm k a hget

end All

end GovernedCatalog.SortedMap
