/-!
# Finite sets in order

A `SortedSet` lists its elements in strictly increasing order, so equal sets
are equal values and sets compare by their listings.
-/

namespace GovernedCatalog

variable {α : Type u} [Ord α]

structure SortedSet (α : Type u) [Ord α] where
  elems : List α
  increasing : elems.Pairwise fun a b => compare a b = .lt

namespace SortedSet

@[ext] theorem ext {s t : SortedSet α} (h : s.elems = t.elems) : s = t := by
  cases s
  cases t
  cases h
  rfl

instance [DecidableEq α] : DecidableEq (SortedSet α) :=
  fun _ _ => decidable_of_iff _ ⟨ext, congrArg elems⟩

/-- Sets compare by their listings. -/
instance : Ord (SortedSet α) := ⟨compareOn elems⟩

instance [Std.TransOrd α] : Std.TransOrd (SortedSet α) :=
  inferInstanceAs (Std.TransCmp (compareOn elems))

instance [Std.LawfulEqOrd α] : Std.LawfulEqOrd (SortedSet α) where
  compare_self := Std.ReflOrd.compare_self (α := List α)
  eq_of_compare h := ext (Std.LawfulEqOrd.eq_of_compare (α := List α) h)

def empty : SortedSet α := ⟨[], List.Pairwise.nil⟩

instance : Inhabited (SortedSet α) := ⟨empty⟩

instance : EmptyCollection (SortedSet α) := ⟨empty⟩

def isEmpty (s : SortedSet α) : Bool := s.elems.isEmpty

def size (s : SortedSet α) : Nat := s.elems.length

def contains (s : SortedSet α) (a : α) : Bool :=
  s.elems.any fun b => compare a b == .eq

/-- Puts an element at its place, once. -/
def insertElem (a : α) : List α → List α
  | [] => [a]
  | b :: rest =>
      match compare a b with
      | .lt => a :: b :: rest
      | .eq => a :: rest
      | .gt => b :: insertElem a rest

theorem mem_insertElem {a b : α} {elems : List α}
    (h : b ∈ insertElem a elems) : b = a ∨ b ∈ elems := by
  induction elems with
  | nil => simpa [insertElem] using h
  | cons head rest ih =>
      unfold insertElem at h
      split at h
      · simpa using h
      · rcases List.mem_cons.1 h with h | h
        · exact Or.inl h
        · exact Or.inr (List.mem_cons_of_mem _ h)
      · rcases List.mem_cons.1 h with h | h
        · exact Or.inr (h ▸ List.mem_cons_self)
        · rcases ih h with h | h
          · exact Or.inl h
          · exact Or.inr (List.mem_cons_of_mem _ h)

theorem insertElem_increasing [Std.TransOrd α] (a : α) {elems : List α}
    (h : elems.Pairwise fun a b => compare a b = .lt) :
    (insertElem a elems).Pairwise fun a b => compare a b = .lt := by
  induction elems with
  | nil => simp [insertElem]
  | cons head rest ih =>
      have hhead : ∀ b ∈ rest, compare head b = .lt :=
        fun _ hb => List.rel_of_pairwise_cons h hb
      have hrest := List.Pairwise.of_cons h
      unfold insertElem
      split
      · rename_i hlt
        refine List.Pairwise.cons (fun b hb => ?_) h
        rcases List.mem_cons.1 hb with rfl | hb
        · exact hlt
        · exact Std.TransCmp.lt_trans hlt (hhead b hb)
      · rename_i heq
        exact List.Pairwise.cons
          (fun b hb => Std.TransCmp.lt_of_eq_of_lt heq (hhead b hb)) hrest
      · rename_i hgt
        refine List.Pairwise.cons (fun b hb => ?_) (ih hrest)
        rcases mem_insertElem hb with rfl | hb
        · exact Std.OrientedCmp.gt_iff_lt.1 hgt
        · exact hhead b hb

def insert [Std.TransOrd α] (s : SortedSet α) (a : α) : SortedSet α :=
  ⟨insertElem a s.elems, insertElem_increasing a s.increasing⟩

def ofList [Std.TransOrd α] (elems : List α) : SortedSet α :=
  elems.foldl insert empty

def union [Std.TransOrd α] (s t : SortedSet α) : SortedSet α :=
  t.elems.foldl insert s

def erase (s : SortedSet α) (a : α) : SortedSet α :=
  ⟨s.elems.filter fun b => compare a b != .eq, s.increasing.filter _⟩

end SortedSet

end GovernedCatalog
