import GovernedCatalog.Ordered.Set
import Mathlib.Data.List.Dedup

/-!
# Membership in sorted sets

Membership is the view of a `SortedSet`: sets with the same elements are equal,
and every operation on sets is described by what it does to membership.
-/

namespace GovernedCatalog.SortedSet

variable {α : Type u} [Ord α]

instance : Membership α (SortedSet α) := ⟨fun s a => a ∈ s.elems⟩

@[simp] theorem mem_elems {s : SortedSet α} {a : α} : a ∈ s.elems ↔ a ∈ s :=
  Iff.rfl

@[simp] theorem not_mem_empty (a : α) : ¬a ∈ (∅ : SortedSet α) :=
  List.not_mem_nil

/-- The elements that satisfy a condition. -/
def filter (s : SortedSet α) (p : α → Bool) : SortedSet α :=
  ⟨s.elems.filter p, s.increasing.filter _⟩

@[simp] theorem mem_filter {s : SortedSet α} {p : α → Bool} {a : α} :
    a ∈ s.filter p ↔ a ∈ s ∧ p a = true :=
  List.mem_filter

section Lawful

variable [Std.LawfulEqOrd α]

theorem contains_iff {s : SortedSet α} {a : α} :
    s.contains a = true ↔ a ∈ s := by
  unfold contains
  rw [List.any_eq_true]
  simp only [beq_iff_eq, Std.LawfulEqOrd.compare_eq_iff_eq]
  constructor
  · rintro ⟨b, hmem, rfl⟩
    exact hmem
  · intro hmem
    exact ⟨a, hmem, rfl⟩

@[simp] theorem mem_erase {s : SortedSet α} {a b : α} :
    b ∈ s.erase a ↔ b ∈ s ∧ b ≠ a := by
  unfold erase
  rw [← mem_elems, List.mem_filter, mem_elems, bne_iff_ne, ne_eq,
    Std.LawfulEqOrd.compare_eq_iff_eq, ne_eq, eq_comm]

theorem nodup [Std.TransOrd α] (s : SortedSet α) : s.elems.Nodup := by
  refine List.Pairwise.imp ?_ s.increasing
  rintro a b hlt rfl
  rw [Std.ReflOrd.compare_self] at hlt
  cases hlt

/-- Sets with the same elements are equal. -/
theorem ext_mem [Std.TransOrd α] {s t : SortedSet α}
    (h : ∀ a, a ∈ s ↔ a ∈ t) : s = t := by
  have hperm : s.elems.Perm t.elems :=
    (List.perm_ext_iff_of_nodup s.nodup t.nodup).2 h
  refine ext (hperm.eq_of_pairwise ?_ s.increasing t.increasing)
  intro a b _ _ hab hba
  rw [Std.OrientedCmp.gt_iff_lt.2 hba] at hab
  cases hab

theorem mem_insertElem_iff {a b : α} {elems : List α} :
    b ∈ insertElem a elems ↔ b = a ∨ b ∈ elems := by
  induction elems with
  | nil => simp [insertElem]
  | cons head rest ih =>
      cases hcmp : compare a head with
      | lt => simp [insertElem, hcmp]
      | eq =>
          have heq := Std.LawfulEqOrd.eq_of_compare hcmp
          subst heq
          simp [insertElem]
      | gt =>
          simp only [insertElem, hcmp, List.mem_cons, ih]
          exact or_left_comm

variable [Std.TransOrd α]

@[simp] theorem mem_insert {s : SortedSet α} {a b : α} :
    b ∈ s.insert a ↔ b = a ∨ b ∈ s :=
  mem_insertElem_iff

theorem mem_foldl_insert {s : SortedSet α} {b : α} (elems : List α) :
    b ∈ elems.foldl insert s ↔ b ∈ s ∨ b ∈ elems := by
  induction elems generalizing s with
  | nil => simp
  | cons head rest ih =>
      simp only [List.foldl_cons, ih, mem_insert, List.mem_cons]
      rw [or_comm (a := b = head), or_assoc]

@[simp] theorem mem_ofList {a : α} {elems : List α} :
    a ∈ ofList elems ↔ a ∈ elems := by
  unfold ofList
  rw [mem_foldl_insert]
  exact or_iff_right List.not_mem_nil

theorem ofList_elems (s : SortedSet α) : ofList s.elems = s :=
  ext_mem fun _ => mem_ofList

theorem elems_ofList_perm_dedup [DecidableEq α] (l : List α) :
    (ofList l).elems.Perm l.dedup := by
  refine (List.perm_ext_iff_of_nodup (nodup _) l.nodup_dedup).2 fun a => ?_
  rw [mem_elems, mem_ofList, List.mem_dedup]

theorem length_ofList_le [DecidableEq α] (l : List α) :
    (ofList l).elems.length ≤ l.length := by
  rw [(elems_ofList_perm_dedup l).length_eq]
  exact l.dedup_sublist.length_le

/-- As many elements as are listed, if none is listed twice. -/
theorem length_ofList_eq_iff [DecidableEq α] {l : List α} :
    (ofList l).elems.length = l.length ↔ l.Nodup := by
  rw [(elems_ofList_perm_dedup l).length_eq]
  constructor
  · intro h
    rw [← l.dedup_sublist.eq_of_length h]
    exact l.nodup_dedup
  · intro h
    rw [List.dedup_eq_self.2 h]

@[simp] theorem mem_union {s t : SortedSet α} {a : α} :
    a ∈ s.union t ↔ a ∈ s ∨ a ∈ t :=
  mem_foldl_insert t.elems

end Lawful

end GovernedCatalog.SortedSet
