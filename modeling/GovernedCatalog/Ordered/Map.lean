/-!
# Finite maps in key order

A `SortedMap` is a list of entries whose keys strictly increase.  The order is
part of the type, so two maps with the same look-ups are the same value and
every listing of a map is in key order.
-/

namespace GovernedCatalog

variable {κ : Type u} {α : Type v} {β : Type w} [Ord κ]

/-- Entries with strictly increasing keys. -/
def KeysIncrease (entries : List (κ × α)) : Prop :=
  entries.Pairwise fun a b => compare a.1 b.1 = .lt

structure SortedMap (κ : Type u) (α : Type v) [Ord κ] where
  entries : List (κ × α)
  increasing : KeysIncrease entries

namespace SortedMap

@[ext] theorem ext {m n : SortedMap κ α} (h : m.entries = n.entries) :
    m = n := by
  cases m
  cases n
  cases h
  rfl

instance [DecidableEq κ] [DecidableEq α] : DecidableEq (SortedMap κ α) :=
  fun _ _ => decidable_of_iff _ ⟨ext, congrArg entries⟩

def empty : SortedMap κ α := ⟨[], List.Pairwise.nil⟩

instance : Inhabited (SortedMap κ α) := ⟨empty⟩

instance : EmptyCollection (SortedMap κ α) := ⟨empty⟩

def isEmpty (m : SortedMap κ α) : Bool := m.entries.isEmpty

def size (m : SortedMap κ α) : Nat := m.entries.length

def keys (m : SortedMap κ α) : List κ := m.entries.map (·.1)

def values (m : SortedMap κ α) : List α := m.entries.map (·.2)

/-- The value of the entry whose key equals `k`. -/
def lookup (k : κ) : List (κ × α) → Option α
  | [] => none
  | (k', a) :: rest =>
      match compare k k' with
      | .eq => some a
      | _ => lookup k rest

def get? (m : SortedMap κ α) (k : κ) : Option α := lookup k m.entries

def contains (m : SortedMap κ α) (k : κ) : Bool := (m.get? k).isSome

/-- Puts an entry at its place, in place of one with the same key. -/
def insertEntry (k : κ) (a : α) : List (κ × α) → List (κ × α)
  | [] => [(k, a)]
  | (k', a') :: rest =>
      match compare k k' with
      | .lt => (k, a) :: (k', a') :: rest
      | .eq => (k, a) :: rest
      | .gt => (k', a') :: insertEntry k a rest

theorem mem_insertEntry {k : κ} {a : α} {e : κ × α} {entries : List (κ × α)}
    (h : e ∈ insertEntry k a entries) : e = (k, a) ∨ e ∈ entries := by
  induction entries with
  | nil => simpa [insertEntry] using h
  | cons head rest ih =>
      obtain ⟨k', a'⟩ := head
      unfold insertEntry at h
      split at h
      · simpa using h
      · rcases List.mem_cons.1 h with h | h
        · exact Or.inl h
        · exact Or.inr (List.mem_cons_of_mem _ h)
      · rcases List.mem_cons.1 h with h | h
        · exact Or.inr (h ▸ List.mem_cons_self)
        · rcases ih h with h | h
          · exact Or.inl h
          · exact Or.inr (List.mem_cons_of_mem _ h)

theorem insertEntry_increasing [Std.TransOrd κ] (k : κ) (a : α)
    {entries : List (κ × α)} (h : KeysIncrease entries) :
    KeysIncrease (insertEntry k a entries) := by
  induction entries with
  | nil => simp [insertEntry, KeysIncrease]
  | cons head rest ih =>
      obtain ⟨k', a'⟩ := head
      have hhead : ∀ e ∈ rest, compare k' e.1 = .lt :=
        fun _ he => List.rel_of_pairwise_cons h he
      have hrest := List.Pairwise.of_cons h
      unfold insertEntry
      split
      · rename_i hlt
        refine List.Pairwise.cons (fun e he => ?_) h
        rcases List.mem_cons.1 he with rfl | he
        · exact hlt
        · exact Std.TransCmp.lt_trans hlt (hhead _ he)
      · rename_i heq
        exact List.Pairwise.cons
          (fun e he => Std.TransCmp.lt_of_eq_of_lt heq (hhead _ he)) hrest
      · rename_i hgt
        refine List.Pairwise.cons (fun e he => ?_) (ih hrest)
        rcases mem_insertEntry he with rfl | he
        · exact Std.OrientedCmp.gt_iff_lt.1 hgt
        · exact hhead _ he

def insert [Std.TransOrd κ] (m : SortedMap κ α) (k : κ) (a : α) :
    SortedMap κ α :=
  ⟨insertEntry k a m.entries, insertEntry_increasing k a m.increasing⟩

/-- Later entries replace earlier ones with the same key. -/
def ofList [Std.TransOrd κ] (entries : List (κ × α)) : SortedMap κ α :=
  entries.foldl (fun m e => m.insert e.1 e.2) empty

/-- The entries of `overrides` replace those of `m` with the same key. -/
def overlay [Std.TransOrd κ] (m overrides : SortedMap κ α) : SortedMap κ α :=
  overrides.entries.foldl (fun n e => n.insert e.1 e.2) m

def filter (m : SortedMap κ α) (p : κ → α → Bool) : SortedMap κ α :=
  ⟨m.entries.filter fun e => p e.1 e.2, m.increasing.filter _⟩

def erase (m : SortedMap κ α) (k : κ) : SortedMap κ α :=
  m.filter fun k' _ => compare k k' != .eq

/-- Applies `f` to every value. -/
def mapValues (m : SortedMap κ α) (f : κ → α → β) : SortedMap κ β :=
  ⟨m.entries.map fun e => (e.1, f e.1 e.2),
    by exact List.pairwise_map.2 m.increasing⟩

/-- Applies `f` to the value at `k`, if there is one. -/
def modify (m : SortedMap κ α) (k : κ) (f : α → α) : SortedMap κ α :=
  m.mapValues fun k' a => if compare k k' == .eq then f a else a

/-- Applies `f` to the value at `k`, or enters `fresh` at `k`. -/
def getOrInsert [Std.TransOrd κ] (m : SortedMap κ α) (k : κ) (fresh : α) :
    SortedMap κ α :=
  if m.contains k then m else m.insert k fresh

end SortedMap

end GovernedCatalog
