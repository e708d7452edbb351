import GovernedCatalog.Proofs.Rights.Denial

/-!
# Decisions on what is left

A removal that cascades leaves every decision on what it keeps as it was.  A
foreign key may lose references; as long as these were hidden, it is exactly as
visible as before.
-/

namespace GovernedCatalog

theorem Removal.kept_owner {r : Removal} {p q : Part} (h : p.owner? = some q)
    (hkept : r.removes p = false) : r.removes q = false := by
  rw [Bool.eq_false_iff] at hkept ⊢
  exact fun hq => hkept (r.owned h hq)

namespace Removal.Cascades

variable {r : Removal} (hr : r.Cascades)

include hr

theorem kept_column_of_key {path : TablePath} {columns : ColumnSet}
    (hkept : r.removes (.key path columns) = false) {name : String}
    (hname : name ∈ columns) : r.removes (.column path name) = false := by
  rw [Bool.eq_false_iff] at hkept ⊢
  exact fun hremoved => hkept (hr.column_key hremoved hname)

theorem kept_column_of_reference {id : ReferenceId}
    (hkept : r.removes (.reference id) = false) {name : String}
    (hname : name ∈ id.mapping.fromColumns) :
    r.removes (.column id.source name) = false := by
  rw [Bool.eq_false_iff] at hkept ⊢
  exact fun hremoved => hkept (hr.column_reference hremoved hname)

theorem kept_key_of_reference {id : ReferenceId}
    (hkept : r.removes (.reference id) = false) :
    r.removes (.key id.mapping.target id.mapping.toColumns) = false := by
  rw [Bool.eq_false_iff] at hkept ⊢
  exact fun hremoved => hkept (hr.key_reference hremoved)

end Removal.Cascades

theorem Table.column?_without (t : Table) (r : Removal) (name : String) :
    (t.without r).column? name =
      if r.removes (.column t.path name) = true then none
      else t.column? name := by
  unfold column? without
  rw [List.find?_filter]
  by_cases hremoved : r.removes (.column t.path name) = true
  · rw [if_pos hremoved, List.find?_eq_none]
    intro c _
    by_cases hname : c.name = name <;> simp [hname, hremoved]
  · rw [if_neg hremoved]
    refine congrArg (List.find? · t.columns) (funext fun c => ?_)
    by_cases hname : c.name = name <;> simp [hname, hremoved]

theorem Table.Named.column?_kept {t : Table} {path : TablePath}
    (ht : t.Named path) {r : Removal} {name : String}
    (hkept : r.removes (.column path name) = false) :
    (t.without r).column? name = t.column? name := by
  rw [t.column?_without, ht.path_eq, hkept]
  exact if_neg Bool.false_ne_true

namespace Model

section Kept

variable {m : Model} {r : Removal}

theorem schemas_kept {name : String} {s : Schema}
    (hs : m.schemas.get? name = some s)
    (hkept : r.removes (.schema name) = false) :
    (m.without r).schemas.get? name = some (s.without r) := by
  rw [schemas_without, hkept, hs]
  rfl

theorem Named.table?_kept (hm : m.Named) {path : TablePath} {t : Table}
    (ht : m.table? path = some t) (hkept : r.removes (.table path) = false) :
    (m.without r).table? path = some (t.without r) := by
  rw [hm.table?_without, hkept, ht]
  rfl

end Kept

namespace Addressable

variable {m : Model} (hm : m.Addressable) {r : Removal} {roles : Roles}
  {right : Right}

include hm

theorem without (r : Removal) : (m.without r).Addressable where
  toNamed := hm.toNamed.without r
  system_table := hm.system_table
  system_apart := by
    rw [schemas_without, systemSchema_without, hm.system_apart]
    exact ite_self none

section Table

variable {path : TablePath} {t : Table} (ht : m.table? path = some t)
  (hkept : r.removes (.table path) = false)

include ht hkept

theorem tableOf?_kept : (m.without r).tableOf? path = some (t.without r) :=
  (hm.without r).tableOf?_of_table? (hm.toNamed.table?_kept ht hkept)

/-- The schema of a table that is kept, before and after. -/
theorem schemaOf?_kept : ∃ s, m.schemaOf? t.schema = some s ∧
    (m.without r).schemaOf? t.schema = some (s.without r) := by
  obtain ⟨s, hs, _⟩ := table?_eq_some_iff.1 ht
  have hschema : t.schema = path.schema :=
    congrArg TablePath.schema (hm.table ht).path_eq
  have hs' := schemas_kept hs (Removal.kept_owner (q := .schema _) rfl hkept)
  rw [hschema]
  exact ⟨s, hm.schemaOf?_of_get? hs, (hm.without r).schemaOf?_of_get? hs'⟩

theorem aclFor?_kept :
    (t.without r).aclFor? (m.without r) = t.aclFor? m := by
  obtain ⟨s, hs, hs'⟩ := hm.schemaOf?_kept ht hkept
  funext right
  unfold Table.aclFor?
  change (t.acls.listFor? .table right).or
    (((m.without r).schemaOf? t.schema).bind _) = _
  rw [hs, hs']
  rfl

theorem decide_table_kept :
    decide (m.without r) roles (.table (t.without r)) right =
      decide m roles (.table t) right := by
  obtain ⟨s, hs, hs'⟩ := hm.schemaOf?_kept ht hkept
  have hleft : (m.without r).schemaOf? (t.without r).schema =
      some (s.without r) := hs'
  have hschema : decide (m.without r) roles (.schema (s.without r)) .enumerate =
      decide m roles (.schema s) .enumerate := rfl
  have hbindings : (t.without r).bindings = t.bindings := rfl
  rw [decide_table, decide_table, hm.aclFor?_kept ht hkept, hs, hleft, hbindings]
  dsimp only
  rw [hschema]

theorem decide_column_kept {c : Column} (hc : c.table = path) :
    decide (m.without r) roles (.column c) right =
      decide m roles (.column c) right := by
  have hacl : c.aclFor? (m.without r) (t.without r) = c.aclFor? m t := by
    funext right
    unfold Column.aclFor?
    rw [hm.aclFor?_kept ht hkept]
  rw [decide_column, decide_column, hc, hm.tableOf?_kept ht hkept,
    hm.tableOf?_of_table? ht]
  dsimp only
  rw [hm.decide_table_kept ht hkept, hacl]
  rfl

section Columns

variable {names : List String}
  (hnames : ∀ name ∈ names, r.removes (.column path name) = false)

include hnames

theorem decideColumns_kept :
    decideColumns (m.without r) roles right (t.without r) names =
      decideColumns m roles right t names := by
  induction names with
  | nil => rfl
  | cons name rest ih =>
      rw [decideColumns_cons, decideColumns_cons,
        (hm.table ht).column?_kept (hnames name List.mem_cons_self),
        ih fun name' h => hnames name' (List.mem_cons_of_mem _ h)]
      cases hc : t.column? name with
      | none => rfl
      | some c =>
          have hown := (hm.table ht).column_table c (Table.column?_eq_some hc).1
          dsimp only
          rw [hm.decide_column_kept ht hkept hown]

theorem someColumnDenied_kept :
    someColumnDenied (m.without r) roles right (t.without r) names =
      someColumnDenied m roles right t names := by
  induction names with
  | nil => rfl
  | cons name rest ih =>
      rw [someColumnDenied_cons, someColumnDenied_cons,
        (hm.table ht).column?_kept (hnames name List.mem_cons_self),
        ih fun name' h => hnames name' (List.mem_cons_of_mem _ h)]
      cases hc : t.column? name with
      | none => rfl
      | some c =>
          have hown := (hm.table ht).column_table c (Table.column?_eq_some hc).1
          dsimp only
          rw [hm.decide_column_kept ht hkept hown]

end Columns

end Table

section Cascades

variable (hr : r.Cascades)

include hr

theorem decide_key_kept {path : TablePath} {t : Table}
    (ht : m.table? path = some t) {columns : ColumnSet} {k : UniqueKey}
    (hk : t.key? columns = some k)
    (hkept : r.removes (.key path columns) = false) :
    decide (m.without r) roles (.key (k.without r)) right =
      decide m roles (.key k) right := by
  obtain ⟨hpath, hcolumns⟩ := (hm.table ht).key hk
  have htable : r.removes (.table path) = false :=
    Removal.kept_owner (q := .table path) rfl hkept
  have hnames : ∀ name ∈ k.columns.elems,
      r.removes (.column path name) = false := by
    intro name hname
    rw [hcolumns] at hname
    exact hr.kept_column_of_key hkept hname
  have hcolumns' : (k.without r).columns = k.columns := rfl
  have hpath' : (k.without r).table = path := hpath
  rw [decide_key, decide_key, hpath, hpath', hcolumns',
    hm.tableOf?_kept ht htable, hm.tableOf?_of_table? ht]
  exact hm.decideColumns_kept ht htable hnames

/-- The key of a reference that is kept is kept with it. -/
theorem referencedKey_kept (hclosed : m.Closed) {id : ReferenceId}
    {ref : Reference} (href : m.reference? id = some ref)
    (hkept : r.removes (.reference id) = false) :
    ∃ k, m.referencedKey id.mapping = .ok k ∧
      (m.without r).referencedKey id.mapping = .ok (k.without r) ∧
      decide (m.without r) roles (.key (k.without r)) .enumerate =
        decide m roles (.key k) .enumerate := by
  obtain ⟨k, hk⟩ :=
    has_key.1 (hclosed.has_target_key (has_reference.2 ⟨ref, href⟩))
  obtain ⟨target, htarget, hkey⟩ := key?_eq_some_iff.1 hk
  have hkeyKept := hr.kept_key_of_reference hkept
  have hk' : (m.without r).key? id.mapping.target id.mapping.toColumns =
      some (k.without r) := by
    rw [hm.toNamed.key?_without, hkeyKept, hk]
    rfl
  exact ⟨k, referencedKey_eq_ok_iff.2 hk, referencedKey_eq_ok_iff.2 hk',
    hm.decide_key_kept hr htarget hkey hkeyKept⟩

theorem decide_reference_kept (hclosed : m.Closed) {id : ReferenceId}
    {ref : Reference} (href : m.reference? id = some ref)
    (hkept : r.removes (.reference id) = false) :
    decide (m.without r) roles (.reference ref) right =
      decide m roles (.reference ref) right := by
  obtain ⟨t, ht, _⟩ := reference?_eq_some_iff.1 href
  obtain ⟨hsource, hmapping⟩ := hm.toNamed.reference href
  have htable : r.removes (.table id.source) = false :=
    Removal.kept_owner (q := .table id.source) rfl hkept
  have hnames : ∀ name ∈ id.mapping.fromColumns.elems,
      r.removes (.column id.source name) = false :=
    fun _ hname => hr.kept_column_of_reference hkept hname
  have hacl : ref.aclFor? (m.without r) (t.without r) = ref.aclFor? m t := by
    funext right
    unfold Reference.aclFor?
    rw [hm.aclFor?_kept ht htable]
  obtain ⟨k, hk, hk', hkey⟩ := hm.referencedKey_kept hr hclosed href hkept
  rw [decide_reference, decide_reference, hmapping, hk, hk', hsource,
    hm.tableOf?_kept ht htable, hm.tableOf?_of_table? ht]
  dsimp only
  rw [hkey, hm.someColumnDenied_kept ht htable hnames, hacl]

end Cascades

/-! ## Foreign keys that lose references -/

section ForeignKey

variable (hclosed : m.Closed) (hr : r.Unseen m roles) {path : TablePath}
  {t : Table} (ht : m.table? path = some t) {columns : ColumnSet}
  {fk : ForeignKey} (hfk : t.foreignKeys.get? columns = some fk)

include ht hfk in
theorem reference?_of_foreignKey {mapping : ReferenceMap} {ref : Reference}
    (hget : fk.references.get? mapping = some ref) :
    m.reference? ⟨path, mapping⟩ = some ref := by
  have hcolumns := (((hm.table ht).foreignKey hfk).reference hget).2.2
  refine reference?_eq_some_iff.2 ⟨t, ht, Table.reference?_eq_some_iff.2 ?_⟩
  rw [hcolumns]
  exact ⟨fk, hfk, hget⟩

include hclosed hr ht hfk

theorem decideReferences_kept :
    decideReferences (m.without r) roles .enumerate
        (fk.without r).references.values =
      decideReferences m roles .enumerate fk.references.values := by
  have hentries : ∀ l : List (ReferenceMap × Reference),
      (∀ e ∈ l, m.reference? ⟨path, e.1⟩ = some e.2) →
        decideReferences (m.without r) roles .enumerate
            ((l.filter fun e => !r.removes (.reference ⟨path, e.1⟩)).map
              Prod.snd) =
          decideReferences m roles .enumerate (l.map Prod.snd) := by
    intro l hl
    induction l with
    | nil => rfl
    | cons e rest ih =>
        have hhead := hl e List.mem_cons_self
        have htail := ih fun e' he' => hl e' (List.mem_cons_of_mem _ he')
        rw [List.map_cons, decideReferences_cons, ← htail]
        cases hremoved : r.removes (.reference ⟨path, e.1⟩) with
        | true =>
            rw [List.filter_cons_of_neg (by simp [hremoved]),
              hr.reference hhead hremoved, Decision.deny_or]
        | false =>
            rw [List.filter_cons_of_pos (by simp [hremoved]), List.map_cons,
              decideReferences_cons,
              hm.decide_reference_kept hr.toCascades hclosed hhead hremoved]
  have hnamed := (hm.table ht).foreignKey hfk
  have hall := hentries fk.references.entries fun e he =>
    hm.reference?_of_foreignKey ht hfk
      (SortedMap.get?_eq_some_iff.2 (show (e.1, e.2) ∈ _ from he))
  rw [← hnamed.table_eq] at hall
  exact hall

theorem decide_foreignKey_kept
    (hkept : (fk.without r).references.isEmpty = false) :
    decide (m.without r) roles (.foreignKey (fk.without r)) .enumerate =
      decide m roles (.foreignKey fk) .enumerate := by
  have hnamed := (hm.table ht).foreignKey hfk
  -- One of its references is left, and with it all its columns.
  obtain ⟨mapping, ref, hget⟩ := SortedMap.exists_of_isEmpty_eq_false hkept
  rw [ForeignKey.get?_without, Option.ite_none_left_eq_some, hnamed.table_eq]
    at hget
  obtain ⟨hreference, hget⟩ := hget
  rw [Bool.not_eq_true] at hreference
  have hcolumns := (hnamed.reference hget).2.2
  have htable : r.removes (.table path) = false :=
    Removal.kept_owner (q := .table path) rfl hreference
  have hnames : ∀ name ∈ fk.columns.elems,
      r.removes (.column path name) = false := by
    intro name hname
    rw [hnamed.columns_eq, ← hcolumns] at hname
    exact hr.kept_column_of_reference hreference hname
  have hcolumns' : (fk.without r).columns = fk.columns := rfl
  have hpath' : (fk.without r).table = path := hnamed.table_eq
  rw [decide_foreignKey, decide_foreignKey, hpath', hnamed.table_eq, hcolumns',
    hm.tableOf?_kept ht htable, hm.tableOf?_of_table? ht]
  dsimp only
  rw [hm.decideColumns_kept ht htable hnames,
    hm.decideReferences_kept hclosed hr ht hfk]

omit hclosed in
theorem decide_foreignKey_gone
    (hgone : (fk.without r).references.isEmpty = true) :
    decide m roles (.foreignKey fk) .enumerate = .deny := by
  refine deny_foreignKey_of_references fun ref href => ?_
  obtain ⟨mapping, hget⟩ := SortedMap.mem_values_iff.1 href
  refine hr.reference (hm.reference?_of_foreignKey ht hfk hget) ?_
  have hnone := SortedMap.isEmpty_iff.1 hgone mapping
  rw [ForeignKey.get?_without, ((hm.table ht).foreignKey hfk).table_eq, hget]
    at hnone
  by_contra hkept
  rw [if_neg hkept] at hnone
  cases hnone

end ForeignKey

end Addressable

end Model

end GovernedCatalog
