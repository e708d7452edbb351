import Mathlib.Data.List.Chain
import Mathlib.Data.String.Basic
import GovernedCatalog.Entity.Reference
import GovernedCatalog.Proofs.Ordered.Map

/-!
# Mappings listed as pairs

A list of column pairs describes at most one mapping to a target, and the mapping
that is read from the list is the one it describes.  There is one unless the list is
empty or maps a column twice, and it is the same for all orders of the list.
-/

namespace GovernedCatalog.ReferenceMap

/-- The mapping leads to the target by the pairs, in any order. -/
def Lists (mapping : ReferenceMap) (target : TablePath)
    (pairs : List (String × String)) : Prop :=
  mapping.target = target ∧ mapping.pairs.entries.Perm pairs

instance (mapping : ReferenceMap) (target : TablePath)
    (pairs : List (String × String)) :
    Decidable (mapping.Lists target pairs) :=
  inferInstanceAs (Decidable (_ ∧ _))

variable {mapping mapping' : ReferenceMap} {target : TablePath}
  {pairs : List (String × String)}

theorem Lists.unique (h : mapping.Lists target pairs)
    (h' : mapping'.Lists target pairs) : mapping = mapping' := by
  have hperm := h.2.trans h'.2.symm
  have hentries := SortedMap.keysIncrease_ext mapping.pairs.increasing
    mapping'.pairs.increasing fun e => hperm.mem_iff
  exact ext (h.1.trans h'.1.symm) (SortedMap.ext hentries)

theorem lists_of_ofPairs (h : ofPairs target pairs = .ok mapping) :
    mapping.Lists target pairs := by
  unfold ofPairs at h
  by_cases hempty : pairs.isEmpty = true
  · rw [if_pos hempty] at h
    cases h
  · rw [if_neg hempty] at h
    by_cases hsize : (SortedMap.ofList pairs).size = pairs.length ∧
        (SortedMap.ofList pairs).entries ≠ []
    · rw [dif_pos hsize] at h
      cases h
      have hperm := SortedMap.foldl_insert_perm (m := SortedMap.empty)
        (hsize.1.trans (Nat.zero_add _).symm)
      exact ⟨rfl, hperm⟩
    · rw [dif_neg hsize] at h
      cases h

/-- A mapping is read from its own pairs. -/
theorem ofPairs_entries (mapping : ReferenceMap) :
    ofPairs mapping.target mapping.pairs.entries = .ok mapping := by
  have hmap : SortedMap.ofList mapping.pairs.entries = mapping.pairs :=
    SortedMap.ofList_entries mapping.pairs
  unfold ofPairs
  rw [if_neg (by simpa using mapping.nonempty)]
  simp only [hmap]
  exact dif_pos ⟨rfl, mapping.nonempty⟩

theorem ofPairs_eq_ok_iff :
    ofPairs target pairs = .ok mapping ↔ mapping.Lists target pairs := by
  refine ⟨lists_of_ofPairs, fun ⟨htarget, hperm⟩ => ?_⟩
  have hempty : ¬pairs.isEmpty = true := by
    intro hnil
    rw [List.isEmpty_iff] at hnil
    exact mapping.nonempty (List.perm_nil.1 (hnil ▸ hperm))
  have hmap := SortedMap.ofList_of_perm hperm.symm
  unfold ofPairs
  rw [if_neg hempty]
  simp only [hmap]
  subst htarget
  exact dif_pos ⟨hperm.length_eq, mapping.nonempty⟩

/-- The columns of a mapping, listed side by side, are its pairs. -/
theorem zip_sources_targets (mapping : ReferenceMap) :
    mapping.sources.zip mapping.targets = mapping.pairs.entries := by
  unfold sources targets SortedMap.keys SortedMap.values
  rw [List.zip_map']
  exact List.map_id _

/-! ## Which lists are mappings -/

theorem sources_increase (mapping : ReferenceMap) : mapping.sources.Pairwise (· < ·) :=
  List.pairwise_map.2 (mapping.pairs.increasing.imp compare_lt_iff_lt.1)

theorem Lists.targetOf?_eq_some_iff (h : mapping.Lists target pairs)
    {source column : String} :
    mapping.targetOf? source = some column ↔ (source, column) ∈ pairs :=
  SortedMap.get?_eq_some_iff.trans h.2.mem_iff

theorem exists_lists_iff :
    (∃ mapping : ReferenceMap, mapping.Lists target pairs) ↔
      pairs ≠ [] ∧ (pairs.map Prod.fst).Nodup := by
  constructor
  · rintro ⟨mapping, -, hperm⟩
    refine ⟨?_, (hperm.map Prod.fst).nodup_iff.1 mapping.pairs.nodup_keys⟩
    rintro rfl
    exact mapping.nonempty hperm.eq_nil
  · rintro ⟨hne, hnodup⟩
    have hperm := SortedMap.entries_ofList_perm hnodup
    have hentries : (SortedMap.ofList pairs).entries ≠ [] := fun hnil =>
      hne (List.nil_perm.1 (hnil ▸ hperm))
    exact ⟨⟨target, .ofList pairs, hentries⟩, rfl, hperm⟩

/-! ## Sorted pairs -/

/-- Pairs in the order of the columns that are mapped, then of those they are mapped to. -/
def pairOrder (p q : String × String) : Bool :=
  (compareLex (compareOn Prod.fst) (compareOn Prod.snd) p q).isLE

theorem le_of_pairOrder {p q : String × String} (h : pairOrder p q = true) : p.1 ≤ q.1 := by
  have hfirst : compare p.1 q.1 ≠ .gt := by
    intro hgt
    simp [pairOrder, compareLex, compareOn, hgt] at h
  exact compare_le_iff_le.1 hfirst

theorem sorted_le (pairs : List (String × String)) :
    (pairs.mergeSort pairOrder).Pairwise fun p q => p.1 ≤ q.1 := by
  have hsorted : (pairs.mergeSort pairOrder).Pairwise fun p q => pairOrder p q = true :=
    List.pairwise_mergeSort (fun _ _ _ => Std.TransCmp.isLE_trans) (isLE_total _) pairs
  exact hsorted.imp le_of_pairOrder

theorem increase_of_neighbours (hle : pairs.Pairwise fun p q => p.1 ≤ q.1)
    (h : pairs.IsChain fun p q => p.1 ≠ q.1) : pairs.Pairwise fun p q => p.1 < q.1 := by
  induction pairs with
  | nil => exact List.Pairwise.nil
  | cons p rest ih =>
    obtain ⟨hfirst, hrest⟩ := List.isChain_cons.1 h
    have hincrease := ih (List.Pairwise.of_cons hle) hrest
    refine List.Pairwise.cons (fun q hq => ?_) hincrease
    cases rest with
    | nil => cases hq
    | cons r rest =>
      have hle' : p.1 ≤ r.1 := List.rel_of_pairwise_cons hle List.mem_cons_self
      have hlt : p.1 < r.1 := lt_of_le_of_ne hle' (hfirst r rfl)
      rcases List.mem_cons.1 hq with rfl | hq
      · exact hlt
      · exact hlt.trans (List.rel_of_pairwise_cons hincrease hq)

/-- A column that is listed twice stands beside itself in the sorted list. -/
theorem nodup_iff_neighbours :
    (pairs.map Prod.fst).Nodup ↔
      (pairs.mergeSort pairOrder).IsChain fun p q => p.1 ≠ q.1 := by
  rw [← ((pairs.mergeSort_perm pairOrder).map Prod.fst).nodup_iff]
  constructor
  · exact fun h => (List.pairwise_map.1 h).isChain
  · intro h
    have hincrease := increase_of_neighbours (sorted_le pairs) h
    exact List.pairwise_map.2 (hincrease.imp ne_of_lt)

theorem Lists.entries_eq_sorted (h : mapping.Lists target pairs) :
    mapping.pairs.entries = pairs.mergeSort pairOrder := by
  have hperm := h.2.trans (pairs.mergeSort_perm pairOrder).symm
  have hle : mapping.pairs.entries.Pairwise fun p q => p.1 ≤ q.1 :=
    mapping.pairs.increasing.imp fun hlt => (compare_lt_iff_lt.1 hlt).le
  refine hperm.eq_of_pairwise (fun p q hp hq hpq hqp => ?_) hle (sorted_le pairs)
  exact List.inj_on_of_nodup_map mapping.pairs.nodup_keys hp (hperm.mem_iff.2 hq)
    (le_antisymm hpq hqp)

/-- A list of pairs is a mapping unless it is empty or maps a column twice, which is
found by comparing neighbours of the sorted list.  The mapping has the sorted pairs, and
maps each column as it is listed; two lists are the same mapping exactly if they are the
same up to their order. -/
theorem ofPairs_canonical (target : TablePath) (pairs pairs' : List (String × String)) :
    ((∃ mapping, ofPairs target pairs = .ok mapping) ↔
        pairs ≠ [] ∧ (pairs.map Prod.fst).Nodup) ∧
      ((pairs.map Prod.fst).Nodup ↔
        (pairs.mergeSort pairOrder).IsChain fun p q => p.1 ≠ q.1) ∧
      (∀ mapping, ofPairs target pairs = .ok mapping →
        mapping.target = target ∧ mapping.pairs.entries = pairs.mergeSort pairOrder ∧
          mapping.pairs.entries.Perm pairs ∧ mapping.sources.Pairwise (· < ·) ∧
          ∀ source column, mapping.targetOf? source = some column ↔
            (source, column) ∈ pairs) ∧
      ∀ mapping mapping', ofPairs target pairs = .ok mapping →
        ofPairs target pairs' = .ok mapping' →
        (mapping = mapping' ↔ pairs.Perm pairs') := by
  simp only [ofPairs_eq_ok_iff]
  refine ⟨exists_lists_iff, nodup_iff_neighbours, fun mapping h => ?_,
    fun mapping mapping' h h' => ⟨?_, fun hperm => ?_⟩⟩
  · exact ⟨h.1, h.entries_eq_sorted, h.2, mapping.sources_increase,
      fun _ _ => h.targetOf?_eq_some_iff⟩
  · rintro rfl
    exact h.2.symm.trans h'.2
  · exact h.unique ⟨h'.1, h'.2.trans hperm.symm⟩

/-- Two orders of the same pairs, and a list with a column that is mapped twice. -/
theorem ofPairs_canonical_seats :
    let target : TablePath := ⟨"theatre", "seats"⟩
    let pairs := [("seat", "number"), ("box", "row")]
    let repeated := [("seat", "number"), ("box", "row"), ("seat", "letter")]
    (∃ mapping, ofPairs target pairs = .ok mapping ∧
        ofPairs target pairs.reverse = .ok mapping ∧
        mapping.targetOf? "box" = some "row") ∧
      ¬∃ mapping, ofPairs target repeated = .ok mapping := by
  intro target pairs repeated
  obtain ⟨haccept, -, hmapping, hsame⟩ := ofPairs_canonical target pairs pairs.reverse
  obtain ⟨mapping, h⟩ := haccept.2 ⟨by decide, by decide⟩
  have haccept' := (ofPairs_canonical target pairs.reverse pairs).1
  obtain ⟨mapping', h'⟩ := haccept'.2 ⟨by decide, by decide⟩
  obtain rfl := (hsame mapping mapping' h h').2 (List.reverse_perm pairs).symm
  have hbox := ((hmapping mapping h).2.2.2.2 "box" "row").2 (by decide)
  refine ⟨⟨mapping, h, h', hbox⟩, fun hrepeated => ?_⟩
  exact absurd ((ofPairs_canonical target repeated pairs).1.1 hrepeated).2 (by decide)

end GovernedCatalog.ReferenceMap
