import Mathlib.Data.List.Pairwise
import GovernedCatalog.Proofs.Model.Addition
import GovernedCatalog.Proofs.Model.Erasure

/-!
# Columns in the order of their positions

Columns are added to a table at any positions, and columns are removed from it.
Whatever the changes, the columns that are left stand by position, and those at one
position as they were added.  The next position comes after all of them.
-/

namespace GovernedCatalog

/-! ## Stable order -/

namespace Column

/-- The column does not stand after the other in the order of positions. -/
def byPosition (c d : Column) : Bool := (compare c.position? d.position?).isLE

theorem byPosition_trans (c d e : Column) (hcd : c.byPosition d = true)
    (hde : d.byPosition e = true) : c.byPosition e = true :=
  Std.TransCmp.isLE_trans hcd hde

theorem byPosition_total (c d : Column) : (c.byPosition d || d.byPosition c) = true :=
  isLE_total compare c.position? d.position?

theorem position?_eq_of_byPosition {c d : Column} (hcd : c.byPosition d = true)
    (hdc : d.byPosition c = true) : c.position? = d.position? :=
  Std.LawfulEqOrd.eq_of_compare (Std.OrientedCmp.isLE_antisymm hcd hdc)

theorem isAfter_eq_not_byPosition (c d : Column) : Table.isAfter c d = !c.byPosition d := by
  unfold Table.isAfter byPosition
  cases c.position? with
  | none => cases d.position? <;> rfl
  | some p =>
    cases d.position? with
    | none => rfl
    | some q =>
      change decide (q < p) = !(compare p q).isLE
      rw [Bool.eq_iff_iff, decide_eq_true_iff, Bool.not_eq_true', ← Bool.not_eq_true,
        Nat.isLE_compare, Nat.not_le]

def Ordered (columns : List Column) : Prop :=
  columns.Pairwise fun c d => c.byPosition d = true

def atPosition (columns : List Column) (position? : Option Nat) : List Column :=
  columns.filter fun c => c.position? == position?

variable {c : Column} {columns : List Column} {position? : Option Nat}

theorem mem_atPosition : c ∈ atPosition columns position? ↔
    c ∈ columns ∧ c.position? = position? := by
  simp [atPosition]

theorem atPosition_cons (c : Column) (columns : List Column) (position? : Option Nat) :
    atPosition (c :: columns) position? =
      (if c.position? = position? then [c] else []) ++ atPosition columns position? := by
  by_cases hc : c.position? = position? <;> simp [atPosition, hc]

theorem mem_iff_of_atPosition {columns columns' : List Column}
    (hat : ∀ position?, atPosition columns position? = atPosition columns' position?)
    (c : Column) : c ∈ columns ↔ c ∈ columns' := by
  have hboth := congrArg (c ∈ ·) (hat c.position?)
  simpa [mem_atPosition] using hboth

/-- Columns that stand by position are determined by those at each position. -/
theorem Ordered.eq_of_atPosition {columns columns' : List Column} (h : Ordered columns)
    (h' : Ordered columns')
    (hat : ∀ position?, atPosition columns position? = atPosition columns' position?) :
    columns = columns' := by
  have hmem := mem_iff_of_atPosition hat
  induction columns generalizing columns' with
  | nil => exact (List.eq_nil_iff_forall_not_mem.2 fun c hc => by simpa using (hmem c).2 hc).symm
  | cons c rest ih =>
    cases columns' with
    | nil => simpa using hmem c
    | cons d rest' =>
      -- Both stand at the least position, so each is the first column there.
      have hposition : c.position? = d.position? := by
        rcases List.mem_cons.1 ((hmem c).1 List.mem_cons_self) with rfl | hc
        · rfl
        · rcases List.mem_cons.1 ((hmem d).2 List.mem_cons_self) with rfl | hd
          · rfl
          · exact position?_eq_of_byPosition (List.rel_of_pairwise_cons h hd)
              (List.rel_of_pairwise_cons h' hc)
      have hfirst := hat d.position?
      rw [atPosition_cons, atPosition_cons, if_pos hposition, if_pos rfl] at hfirst
      obtain rfl : c = d := (List.cons.inj hfirst).1
      have hrest (position? : Option Nat) :
          atPosition rest position? = atPosition rest' position? := by
        have hboth := hat position?
        rwa [atPosition_cons, atPosition_cons, List.append_cancel_left_eq] at hboth
      rw [ih (List.Pairwise.of_cons h) (List.Pairwise.of_cons h') hrest
        (mem_iff_of_atPosition hrest)]

theorem mergeSort_ordered (columns : List Column) : Ordered (columns.mergeSort byPosition) :=
  List.pairwise_mergeSort byPosition_trans byPosition_total columns

theorem atPosition_mergeSort (columns : List Column) (position? : Option Nat) :
    atPosition (columns.mergeSort byPosition) position? = atPosition columns position? := by
  have hequal : Ordered (atPosition columns position?) := by
    refine List.pairwise_of_forall_mem_list fun c hc d hd => ?_
    unfold byPosition
    rw [(mem_atPosition.1 hc).2, (mem_atPosition.1 hd).2, Std.ReflOrd.compare_self]
    rfl
  have hsublist : (atPosition columns position?).Sublist (columns.mergeSort byPosition) :=
    List.sublist_mergeSort byPosition_trans byPosition_total hequal List.filter_sublist
  have hall : (atPosition columns position?).filter (fun c => c.position? == position?) =
      atPosition columns position? :=
    List.filter_eq_self.2 fun c hc => by simpa using (mem_atPosition.1 hc).2
  have hperm : (atPosition (columns.mergeSort byPosition) position?).Perm
      (atPosition columns position?) := (List.mergeSort_perm columns byPosition).filter _
  have hfiltered := hsublist.filter fun c => c.position? == position?
  rw [hall] at hfiltered
  exact (hfiltered.eq_of_length hperm.length_eq.symm).symm

theorem filter_mergeSort (columns : List Column) (p : Column → Bool) :
    (columns.mergeSort byPosition).filter p = (columns.filter p).mergeSort byPosition := by
  have hfiltered : Ordered ((columns.mergeSort byPosition).filter p) :=
    List.Pairwise.filter p (mergeSort_ordered columns)
  refine hfiltered.eq_of_atPosition (mergeSort_ordered _) fun position? => ?_
  have hcommute (columns : List Column) : atPosition (columns.filter p) position? =
      (atPosition columns position?).filter p := List.filter_comm ..
  rw [atPosition_mergeSort, hcommute, hcommute, atPosition_mergeSort]

/-! ## Additions -/

theorem Ordered.insertColumn (h : Ordered columns) (c : Column) :
    Ordered (Table.insertColumn c columns) := by
  induction columns with
  | nil => exact List.pairwise_singleton _ c
  | cons d rest ih =>
    unfold Table.insertColumn
    rw [isAfter_eq_not_byPosition]
    by_cases hdc : d.byPosition c = true
    · rw [if_neg (by simp [hdc])]
      refine List.Pairwise.cons (fun e he => ?_) (ih (List.Pairwise.of_cons h))
      rcases List.mem_cons.1 ((Table.insertColumn_perm c rest).mem_iff.1 he) with rfl | he
      · exact hdc
      · exact List.rel_of_pairwise_cons h he
    · have hcd : c.byPosition d = true := by simpa [hdc] using byPosition_total c d
      rw [if_pos (by simp [hdc])]
      refine List.Pairwise.cons (fun e he => ?_) h
      rcases List.mem_cons.1 he with rfl | he
      · exact hcd
      · exact byPosition_trans _ _ _ hcd (List.rel_of_pairwise_cons h he)

/-- A new column is put behind all others at its position. -/
theorem Ordered.atPosition_insertColumn (h : Ordered columns) (c : Column)
    (position? : Option Nat) :
    atPosition (Table.insertColumn c columns) position? =
      atPosition (columns ++ [c]) position? := by
  induction columns with
  | nil => rfl
  | cons d rest ih =>
    unfold Table.insertColumn
    rw [isAfter_eq_not_byPosition]
    by_cases hdc : d.byPosition c = true
    · rw [if_neg (by simp [hdc]), List.cons_append, atPosition_cons, atPosition_cons,
        ih (List.Pairwise.of_cons h)]
    · have happend : atPosition (d :: rest ++ [c]) position? =
          atPosition (d :: rest) position? ++ atPosition [c] position? := List.filter_append ..
      rw [if_pos (by simp [hdc]), happend, atPosition_cons c, atPosition_cons c]
      by_cases hc : c.position? = position?
      · -- All columns from the first one on stand after the new one.
        have hothers : atPosition (d :: rest) position? = [] := by
          refine List.eq_nil_iff_forall_not_mem.2 fun e he => hdc ?_
          obtain ⟨he, hposition⟩ := mem_atPosition.1 he
          have hde : d.byPosition e = true := by
            rcases List.mem_cons.1 he with rfl | he
            · simpa using byPosition_total e e
            · exact List.rel_of_pairwise_cons h he
          unfold byPosition at hde ⊢
          rwa [hc, ← hposition]
        rw [hothers, List.nil_append, List.append_nil]
        exact (List.append_nil _).symm
      · rw [if_neg hc]
        exact (List.append_nil _).symm

/-- A new column is sorted in as the last of all. -/
theorem insertColumn_mergeSort (added : List Column) (c : Column) :
    Table.insertColumn c (added.mergeSort byPosition) =
      (added ++ [c]).mergeSort byPosition := by
  have hsorted := mergeSort_ordered added
  refine (hsorted.insertColumn c).eq_of_atPosition (mergeSort_ordered _) fun position? => ?_
  rw [hsorted.atPosition_insertColumn, atPosition_mergeSort]
  unfold atPosition
  rw [List.filter_append, List.filter_append]
  exact congrArg (· ++ _) (atPosition_mergeSort added position?)

end Column

/-! ## Runs of changes -/

inductive ColumnChange where
  | add (column : Column)
  | remove (name : String)

/-- What is left after a change of the columns that were added before, in the order in
which they were added.  Search columns are not added, nor are those whose name is there. -/
def ColumnChange.survivors (added : List Column) : ColumnChange → List Column
  | add c =>
      if c.isSearch || added.any (fun d => d.name == c.name) then added else added ++ [c]
  | remove name => added.filter fun c => !(c.name == name)

namespace Table

variable {t : Table} {added : List Column}

/-- The table after a change, or as it is if the change is refused. -/
def change (t : Table) : ColumnChange → Table
  | .add c => (t.addColumn c).toOption.getD t
  | .remove name => t.removeColumn name

theorem change_add (t : Table) (c : Column) :
    t.change (.add c) =
      if c.isSearch || t.hasColumn c.name then t
      else { t with columns := insertColumn c t.columns } := by
  simp only [change, addColumn]
  cases c.isSearch with
  | true => rfl
  | false => cases t.hasColumn c.name <;> rfl

/-- The table has the columns that were added, by position. -/
structure HasAdded (t : Table) (added : List Column) : Prop where
  columns_eq : t.columns = added.mergeSort Column.byPosition
  names : (added.map Column.name).Nodup

namespace HasAdded

theorem fresh (schema name : String) (kind : TableKind) :
    (Table.fresh schema name kind).HasAdded [] where
  columns_eq := List.mergeSort_nil.symm
  names := List.nodup_nil

theorem perm (h : t.HasAdded added) : t.columns.Perm added :=
  h.columns_eq ▸ added.mergeSort_perm Column.byPosition

theorem hasColumn_eq (h : t.HasAdded added) (name : String) :
    t.hasColumn name = added.any fun c => c.name == name := by
  rw [Bool.eq_iff_iff, hasColumn_iff, (h.perm.map Column.name).mem_iff]
  simp

theorem change (h : t.HasAdded added) (change : ColumnChange) :
    (t.change change).HasAdded (change.survivors added) := by
  cases change with
  | add c =>
    rw [change_add, ColumnChange.survivors, ← h.hasColumn_eq c.name]
    split
    next => exact h
    next hnew =>
      have hfresh : c.name ∉ added.map Column.name := by
        rw [← (h.perm.map Column.name).mem_iff, ← hasColumn_iff]
        exact fun hhas => hnew (by simp [hhas])
      constructor
      · rw [h.columns_eq, Column.insertColumn_mergeSort]
      · rw [List.map_append, List.nodup_append_comm]
        exact List.nodup_cons.2 ⟨hfresh, h.names⟩
  | remove name =>
    have hnames : (t.columns.map Column.name).Nodup :=
      (h.perm.map Column.name).nodup_iff.2 h.names
    constructor
    · change t.columns.eraseP _ = _
      rw [eraseP_eq_filter name hnames, h.columns_eq, Column.filter_mergeSort]
      rfl
    · exact h.names.sublist (List.filter_sublist.map Column.name)

theorem changes (h : t.HasAdded added) (changes : List ColumnChange) :
    (changes.foldl Table.change t).HasAdded (changes.foldl ColumnChange.survivors added) := by
  induction changes generalizing t added with
  | nil => exact h
  | cons change rest ih => exact ih (h.change change)

end HasAdded

/-! ## The next position -/

theorem foldl_nextPosition_le_iff (columns : List Column) (start n : Nat) :
    columns.foldl (fun next c => max next (c.position?.elim 0 (· + 1))) start ≤ n ↔
      start ≤ n ∧ ∀ c ∈ columns, ∀ position, c.position? = some position → position < n := by
  induction columns generalizing start with
  | nil => simp
  | cons c rest ih =>
    have hfirst : c.position?.elim 0 (· + 1) ≤ n ↔
        ∀ position, c.position? = some position → position < n := by
      cases c.position? with
      | none => simp
      | some position =>
        refine ⟨fun hlt found hfound => ?_, fun hlt => hlt position rfl⟩
        cases hfound
        exact hlt
    rw [List.foldl_cons, ih, Nat.max_le, hfirst, List.forall_mem_cons, and_assoc]

/-- The next position is the least behind all positions. -/
theorem nextPosition_le_iff {n : Nat} : t.nextPosition ≤ n ↔
    ∀ c ∈ t.columns, ∀ position, c.position? = some position → position < n := by
  unfold nextPosition
  rw [foldl_nextPosition_le_iff]
  simp

theorem addColumn_nextPosition {c : Column} (hc : c.position? = some t.nextPosition)
    (hnew : t.hasColumn c.name = false) :
    t.addColumn c = .ok { t with columns := t.columns ++ [c] } := by
  have hsearch : ¬c.isSearch = true := by
    intro hsearch
    unfold Column.isSearch at hsearch
    unfold Column.position? at hc
    cases hcontent : c.content <;> simp [hcontent] at hsearch hc
  have hnext := nextPosition_le_iff.1 (Nat.le_refl t.nextPosition)
  unfold addColumn
  rw [if_neg hsearch, if_neg (by simp [hnew]), insertColumn_eq_append hc hnext]

/-- Whatever columns are added and removed, those that are left stand by position, and
those at one position as they were added; each has a name of its own.  The next position
is the least behind all of theirs, and a new column that is added there comes last. -/
theorem columns_by_position (schema name : String) (kind : TableKind)
    (changes : List ColumnChange) :
    let t := changes.foldl change (fresh schema name kind)
    let left := changes.foldl ColumnChange.survivors []
    t.columns = left.mergeSort Column.byPosition ∧
      (∀ position?, Column.atPosition t.columns position? =
        Column.atPosition left position?) ∧
      (t.columns.map Column.name).Nodup ∧
      (∀ n, t.nextPosition ≤ n ↔
        ∀ c ∈ t.columns, ∀ position, c.position? = some position → position < n) ∧
      ∀ c : Column, c.position? = some t.nextPosition → t.hasColumn c.name = false →
        t.addColumn c = .ok { t with columns := t.columns ++ [c] } := by
  intro t left
  have hadded : t.HasAdded left := (HasAdded.fresh schema name kind).changes changes
  refine ⟨hadded.columns_eq, fun position? => ?_, ?_, fun n => nextPosition_le_iff,
    fun c => addColumn_nextPosition⟩
  · rw [hadded.columns_eq, Column.atPosition_mergeSort]
  · exact (hadded.perm.map Column.name).nodup_iff.2 hadded.names

/-- Two columns at one position, a name that is there already, and a gap. -/
def shelfChanges : List ColumnChange :=
  let column (name : String) (position : Nat) : ColumnChange :=
    .add (.stored ⟨"library", "shelves"⟩ name position .text none)
  [column "room" 2, column "place" 1, column "floor" 2, column "room" 0, column "number" 7,
    .remove "number", column "wall" 1]

theorem columns_by_position_shelf :
    let t := shelfChanges.foldl change (fresh "library" "shelves" .table)
    let last := Column.stored t.path "last" 3 .text none
    t.columns.map Column.name = ["place", "wall", "room", "floor"] ∧
      last.position? = some t.nextPosition ∧ t.hasColumn last.name = false ∧
      t.addColumn last = .ok { t with columns := t.columns ++ [last] } := by
  intro t last
  obtain ⟨-, -, -, -, hlast⟩ := columns_by_position "library" "shelves" .table shelfChanges
  exact ⟨by decide, by decide, by decide, hlast last (by decide) (by decide)⟩

end Table

end GovernedCatalog
