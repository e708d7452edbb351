import GovernedCatalog.Proofs.Model.Drop
import GovernedCatalog.Proofs.Rights.Addressable
import GovernedCatalog.Proofs.Rights.Afresh

/-!
# Denial spreads

What is in a denied table is denied, a key with a denied column is denied, and
so is a reference that maps a denied column or leads to a denied key.  All that
goes away with a hidden part of a model is therefore hidden as well.
-/

namespace GovernedCatalog

namespace Decision

@[simp] theorem deny_and (d : Decision) : deny.and d = deny := by
  cases d <;> rfl

@[simp] theorem and_deny (d : Decision) : d.and deny = deny := by
  cases d <;> rfl

@[simp] theorem deny_or (d : Decision) : deny.or d = d := by
  cases d <;> rfl

end Decision

theorem ReferenceMap.exists_mem_fromColumns (mapping : ReferenceMap) :
    ∃ name, name ∈ mapping.fromColumns := by
  obtain ⟨e, he⟩ := List.exists_mem_of_ne_nil _ mapping.nonempty
  exact ⟨e.1, SortedSet.mem_ofList.2 (List.mem_map_of_mem he)⟩

theorem ReferenceMap.exists_mem_toColumns (mapping : ReferenceMap) :
    ∃ name, name ∈ mapping.toColumns := by
  obtain ⟨e, he⟩ := List.exists_mem_of_ne_nil _ mapping.nonempty
  exact ⟨e.2, SortedSet.mem_ofList.2 (List.mem_map_of_mem he)⟩

/-! ## From one entity to another -/

section Spread

variable {m : Model} {roles : Roles} {right : Right}

theorem deny_table_of_schema {t : Table} {s : Schema}
    (hs : m.schemaOf? t.schema = some s)
    (h : decide m roles (.schema s) .enumerate = .deny) :
    decide m roles (.table t) right = .deny := by
  rw [decide_table, hs]
  exact if_pos h

theorem deny_column_of_table {c : Column} {t : Table}
    (ht : m.tableOf? c.table = some t)
    (h : decide m roles (.table t) right = .deny) :
    decide m roles (.column c) right = .deny := by
  rw [decide_column, ht]
  exact if_pos h

section Columns

variable {t : Table} {name : String}
  (h : ∀ c, t.column? name = some c →
    decide m roles (.column c) right = .deny)

include h

theorem deny_columns {names : List String} (hname : name ∈ names) :
    decideColumns m roles right t names = .deny := by
  induction names with
  | nil => cases hname
  | cons first rest ih =>
      rw [decideColumns_cons]
      rcases List.mem_cons.1 hname with rfl | hrest
      · cases hc : t.column? name with
        | none => exact Decision.deny_and _
        | some c =>
            dsimp only
            rw [h c hc, Decision.deny_and]
      · rw [ih hrest, Decision.and_deny]

theorem someColumnDenied_of_mem {names : List String} (hname : name ∈ names) :
    someColumnDenied m roles right t names = true := by
  induction names with
  | nil => cases hname
  | cons first rest ih =>
      rw [someColumnDenied_cons]
      rcases List.mem_cons.1 hname with rfl | hrest
      · cases hc : t.column? name with
        | none => rfl
        | some c => exact if_pos (h c hc)
      · rw [ih hrest]
        cases t.column? first with
        | none => rfl
        | some c => exact ite_self true

theorem deny_key_of_column {k : UniqueKey} (ht : m.tableOf? k.table = some t)
    (hname : name ∈ k.columns) : decide m roles (.key k) right = .deny := by
  rw [decide_key, ht]
  exact deny_columns h hname

theorem deny_reference_of_column {r : Reference}
    (ht : m.tableOf? r.source = some t)
    (hname : name ∈ r.mapping.fromColumns) :
    decide m roles (.reference r) right = .deny := by
  rw [decide_reference, ht]
  cases m.referencedKey r.mapping with
  | error e => rfl
  | ok k =>
      dsimp only
      rw [if_pos (someColumnDenied_of_mem h hname), ite_self]

end Columns

theorem deny_reference_of_key {r : Reference} {k : UniqueKey}
    (hk : m.referencedKey r.mapping = .ok k)
    (h : decide m roles (.key k) .enumerate = .deny) :
    decide m roles (.reference r) right = .deny := by
  rw [decide_reference, hk]
  exact if_pos h

theorem deny_foreignKey_of_references {fk : ForeignKey}
    (h : ∀ r ∈ fk.references.values,
      decide m roles (.reference r) right = .deny) :
    decide m roles (.foreignKey fk) right = .deny := by
  have hreferences : ∀ l : List Reference,
      (∀ r ∈ l, decide m roles (.reference r) right = .deny) →
        decideReferences m roles right l = .deny := by
    intro l hl
    induction l with
    | nil => rfl
    | cons r rest ih =>
        rw [decideReferences_cons, hl r List.mem_cons_self, Decision.deny_or]
        exact ih fun r' hr' => hl r' (List.mem_cons_of_mem _ hr')
  rw [decide_foreignKey]
  cases m.tableOf? fk.table with
  | none => rfl
  | some t =>
      dsimp only
      rw [hreferences _ h, Decision.and_deny]

end Spread

/-! ## From a part to what goes away with it -/

/-- The part is in the model, and the requester cannot see it. -/
def Model.Hides (m : Model) (roles : Roles) (p : Part) : Prop :=
  ∃ e, m.entity p.address = .ok e ∧ decide m roles e .enumerate = .deny

namespace Model

variable {m : Model}

theorem entity_schema {name : String} {s : Schema}
    (hs : m.schemas.get? name = some s) :
    m.entity (Part.schema name).address = .ok (.schema s) :=
  map_eq_ok.2 ⟨s, schema_eq_ok_iff.2 hs, rfl⟩

theorem entity_table {path : TablePath} {t : Table}
    (ht : m.table? path = some t) :
    m.entity (Part.table path).address = .ok (.table t) :=
  map_eq_ok.2 ⟨t, table_eq_ok_iff.2 ht, rfl⟩

theorem entity_column {path : TablePath} {t : Table}
    (ht : m.table? path = some t) {name : String} {c : Column}
    (hc : t.column? name = some c) :
    m.entity (Part.column path name).address = .ok (.column c) :=
  map_eq_ok.2 ⟨c,
    bind_eq_ok.2 ⟨t, table_eq_ok_iff.2 ht, Table.column_eq_ok_iff.2 hc⟩, rfl⟩

theorem entity_key {path : TablePath} {t : Table}
    (ht : m.table? path = some t) {columns : ColumnSet} {k : UniqueKey}
    (hk : t.key? columns = some k) :
    m.entity (Part.key path columns).address = .ok (.key k) :=
  bind_eq_ok.2 ⟨t, table_eq_ok_iff.2 ht,
    bind_eq_ok.2 ⟨k, Table.key_eq_ok_iff.2 hk, rfl⟩⟩

theorem entity_reference {id : ReferenceId} {r : Reference}
    (hr : m.reference? id = some r) :
    m.entity (Part.reference id).address = .ok (.reference r) :=
  map_eq_ok.2 ⟨r, reference_eq_ok_iff.2 hr, rfl⟩

/-- The entity of a part is the one that the rules find. -/
theorem Addressable.holds_of_entity (hm : m.Addressable) {p : Part}
    {e : Entity} (he : m.entity p.address = .ok e) : m.Holds e := by
  cases p with
  | schema name =>
      obtain ⟨s, hs, rfl⟩ := map_eq_ok.1 he
      exact hm.holds_of_schemaOf?
        (hm.schemaOf?_of_get? (schema_eq_ok_iff.1 hs))
  | table path =>
      obtain ⟨t, ht, rfl⟩ := map_eq_ok.1 he
      exact hm.holds_of_tableOf? (hm.tableOf?_of_table? (table_eq_ok_iff.1 ht))
  | column path name =>
      obtain ⟨c, hc, rfl⟩ := map_eq_ok.1 he
      obtain ⟨t, ht, hc⟩ := bind_eq_ok.1 hc
      exact hm.holds_of_column? (hm.tableOf?_of_table? (table_eq_ok_iff.1 ht))
        (Table.column_eq_ok_iff.1 hc)
  | key path columns =>
      obtain ⟨t, ht, he⟩ := bind_eq_ok.1 he
      obtain ⟨k, hk, he⟩ := bind_eq_ok.1 he
      cases he
      exact hm.holds_of_key? (hm.tableOf?_of_table? (table_eq_ok_iff.1 ht))
        (Table.key_eq_ok_iff.1 hk)
  | reference id =>
      obtain ⟨r, hr, rfl⟩ := map_eq_ok.1 he
      obtain ⟨t, ht, hget⟩ :=
        reference?_eq_some_iff.1 (reference_eq_ok_iff.1 hr)
      have hmapping := ((hm.table ht).reference hget).2
      refine hm.holds_of_mem_references (hm.tableOf?_of_table? ht) ?_
      rw [(hm.table ht).mem_references, hmapping]
      exact hget

namespace Hides

variable {roles : Roles} {p : Part} (h : m.Hides roles p)

include h

theorem denied {e : Entity} (he : m.entity p.address = .ok e) :
    decide m roles e .enumerate = .deny := by
  obtain ⟨e', he', hdeny⟩ := h
  rw [he', Except.ok.injEq] at he
  rw [← he]
  exact hdeny

variable (hm : m.Addressable)

include hm

theorem table {path : TablePath} {t : Table} (ht : m.table? path = some t)
    (htakes : p.takesTable path = true) :
    decide m roles (.table t) .enumerate = .deny := by
  rcases of_decide_eq_true htakes with rfl | rfl
  · exact h.denied (entity_table ht)
  · obtain ⟨s, hs, _⟩ := table?_eq_some_iff.1 ht
    have hschema : t.schema = path.schema :=
      congrArg TablePath.schema (hm.table ht).path_eq
    refine deny_table_of_schema ?_ (h.denied (entity_schema hs))
    rw [hschema]
    exact hm.schemaOf?_of_get? hs

theorem column {path : TablePath} {t : Table} (ht : m.table? path = some t)
    {name : String} {c : Column} (hc : t.column? name = some c)
    (htakes : p.takesColumn path name = true) :
    decide m roles (.column c) .enumerate = .deny := by
  rcases Bool.or_eq_true_iff.1 htakes with hcolumn | htable
  · have hp := of_decide_eq_true hcolumn
    subst hp
    exact h.denied (entity_column ht hc)
  · have htableOf := hm.tableOf?_of_table? ht
    rw [← (hm.table ht).column_table c (Table.column?_eq_some hc).1] at htableOf
    exact deny_column_of_table htableOf (h.table hm ht htable)

/-- A key with a column that goes away. -/
theorem key_of_column {path : TablePath} {t : Table}
    (ht : m.table? path = some t) {columns : ColumnSet} {k : UniqueKey}
    (hk : t.key? columns = some k) {name : String} (hname : name ∈ columns)
    (htakes : p.takesColumn path name = true) :
    decide m roles (.key k) .enumerate = .deny := by
  obtain ⟨hpath, hcolumns⟩ := (hm.table ht).key hk
  have htableOf := hm.tableOf?_of_table? ht
  rw [← hpath] at htableOf
  rw [← hcolumns] at hname
  exact deny_key_of_column (fun c hc => h.column hm ht hc htakes) htableOf hname

/-- A key without columns is not hidden by its table. -/
theorem key {path : TablePath} {t : Table} (ht : m.table? path = some t)
    {columns : ColumnSet} {k : UniqueKey} (hk : t.key? columns = some k)
    (hcolumns : p.takesTable path = true → ∃ name, name ∈ columns)
    (htakes : p.takesKey path columns = true) :
    decide m roles (.key k) .enumerate = .deny := by
  rcases Bool.or_eq_true_iff.1 htakes with htakes | htable
  · rcases Bool.or_eq_true_iff.1 htakes with hself | hany
    · have hp := of_decide_eq_true hself
      subst hp
      exact h.denied (entity_key ht hk)
    · obtain ⟨name, hname, hcolumn⟩ := List.any_eq_true.1 hany
      exact h.key_of_column hm ht hk hname
        (Bool.or_eq_true_iff.2 (Or.inl hcolumn))
  · obtain ⟨name, hname⟩ := hcolumns htable
    exact h.key_of_column hm ht hk hname (Bool.or_eq_true_iff.2 (Or.inr htable))

/-- A reference that maps a column that goes away. -/
theorem reference_of_column {id : ReferenceId} {r : Reference}
    (hr : m.reference? id = some r) {name : String}
    (hname : name ∈ id.mapping.fromColumns)
    (htakes : p.takesColumn id.source name = true) :
    decide m roles (.reference r) .enumerate = .deny := by
  obtain ⟨t, ht, _⟩ := reference?_eq_some_iff.1 hr
  obtain ⟨hsource, hmapping⟩ := hm.toNamed.reference hr
  have htableOf := hm.tableOf?_of_table? ht
  rw [← hsource] at htableOf
  rw [← hmapping] at hname
  exact deny_reference_of_column (fun c hc => h.column hm ht hc htakes)
    htableOf hname

/-- A reference whose key goes away. -/
theorem reference_of_key (hclosed : m.Closed) {id : ReferenceId}
    {r : Reference} (hr : m.reference? id = some r)
    (htakes : p.takesKey id.mapping.target id.mapping.toColumns = true) :
    decide m roles (.reference r) .enumerate = .deny := by
  have hmapping := (hm.toNamed.reference hr).2
  obtain ⟨k, hk⟩ := has_key.1 (hclosed.has_target_key (has_reference.2 ⟨r, hr⟩))
  obtain ⟨target, htarget, hkey⟩ := key?_eq_some_iff.1 hk
  have hdeny := h.key hm htarget hkey
    (fun _ => id.mapping.exists_mem_toColumns) htakes
  rw [← referencedKey_eq_ok_iff, ← hmapping] at hk
  exact deny_reference_of_key hk hdeny

end Hides

end Model

/-- A cascading removal of parts of a model that a requester cannot see.  A key
that goes away with its table need not be hidden by itself. -/
structure Removal.Unseen (r : Removal) (m : Model) (roles : Roles) : Prop
    extends r.Cascades where
  schema : ∀ {name : String} {s : Schema}, m.schemas.get? name = some s →
    r.removes (.schema name) = true →
      decide m roles (.schema s) .enumerate = .deny
  table : ∀ {path : TablePath} {t : Table}, m.table? path = some t →
    r.removes (.table path) = true →
      decide m roles (.table t) .enumerate = .deny
  column : ∀ {path : TablePath} {t : Table}, m.table? path = some t →
    ∀ {name : String} {c : Column}, t.column? name = some c →
      r.removes (.column path name) = true →
        decide m roles (.column c) .enumerate = .deny
  key : ∀ {path : TablePath} {t : Table}, m.table? path = some t →
    r.removes (.table path) = false →
      ∀ {columns : ColumnSet} {k : UniqueKey}, t.key? columns = some k →
        r.removes (.key path columns) = true →
          decide m roles (.key k) .enumerate = .deny
  reference : ∀ {id : ReferenceId} {ref : Reference},
    m.reference? id = some ref → r.removes (.reference id) = true →
      decide m roles (.reference ref) .enumerate = .deny

/-- All that goes away with a hidden part is unseen. -/
theorem Model.Hides.unseen {m : Model} (hclosed : m.Closed)
    (hm : m.Addressable) {roles : Roles} {p : Part} (h : m.Hides roles p) :
    (Removal.of p).Unseen m roles where
  toCascades := Removal.of_cascades p
  schema := by
    intro name s hs htakes
    have hp := of_decide_eq_true htakes
    subst hp
    exact h.denied (entity_schema hs)
  table ht htakes := h.table hm ht htakes
  column ht _ _ hc htakes := h.column hm ht hc htakes
  key := by
    intro path t ht hkept columns k hk htakes
    exact h.key hm ht hk
      (fun htable => absurd htable (Bool.eq_false_iff.1 hkept)) htakes
  reference := by
    intro id r hr htakes
    rcases Bool.or_eq_true_iff.1 htakes with htakes | hkey
    · rcases Bool.or_eq_true_iff.1 htakes with htakes | htable
      · rcases Bool.or_eq_true_iff.1 htakes with hself | hany
        · have hp := of_decide_eq_true hself
          subst hp
          exact h.denied (entity_reference hr)
        · obtain ⟨name, hname, hcolumn⟩ := List.any_eq_true.1 hany
          exact h.reference_of_column hm hr hname
            (Bool.or_eq_true_iff.2 (Or.inl hcolumn))
      · obtain ⟨name, hname⟩ := id.mapping.exists_mem_fromColumns
        exact h.reference_of_column hm hr hname
          (Bool.or_eq_true_iff.2 (Or.inr htable))
    · exact h.reference_of_key hm hclosed hr hkey

end GovernedCatalog
