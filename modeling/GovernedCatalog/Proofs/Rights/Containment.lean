import GovernedCatalog.Proofs.Introspection.Origin
import GovernedCatalog.Proofs.Rights.Denial
import GovernedCatalog.Proofs.Rights.Strength

/-!
# What is in a denied table

A right that is denied on a table is denied on its columns, and on all that has a
column: its keys, foreign keys and references.  A key over no columns at all has
nothing that could be denied, so the rules allow every right on it.
-/

namespace GovernedCatalog

/-- A key over no columns. -/
def Entity.isBareKey : Entity → Bool
  | .key k => k.columns.elems.isEmpty
  | _ => false

theorem decideColumns_nil (m : Model) (roles : Roles) (right : Right)
    (t : Table) : decideColumns m roles right t [] = .allow := rfl

namespace Model

variable {m : Model}

theorem Addressable.tableOf?_of_mem_allTables (hm : m.Addressable) {t : Table}
    (ht : t ∈ m.allTables) : m.tableOf? t.path = some t := by
  rcases mem_allTables.1 ht with ⟨path, hpath⟩ | ⟨name, hname⟩
  · rw [(hm.table hpath).path_eq]
    exact hm.tableOf?_of_table? hpath
  · rw [(hm.system_table hname).path_eq]
    exact Option.bind_eq_some_iff.2 ⟨m.systemSchema, if_pos rfl, hname⟩

end Model

/-! ## Kind by kind -/

section Denied

variable {m : Model} (hm : m.Addressable) {roles : Roles} {right : Right}
  {t : Table} (ht : m.tableOf? t.path = some t)
  (hdeny : decide m roles (.table t) right = .deny)

include hm ht hdeny

theorem deny_column_in_table {c : Column} (hc : c ∈ t.columns) :
    decide m roles (.column c) right = .deny := by
  refine deny_column_of_table ?_ hdeny
  rw [(hm.tableOf?_named ht).column_table c hc]
  exact ht

theorem deny_column?_in_table {name : String} (c : Column)
    (hc : t.column? name = some c) :
    decide m roles (.column c) right = .deny :=
  deny_column_in_table hm ht hdeny (Table.column?_eq_some hc).1

theorem decide_key_in_table {k : UniqueKey} (hk : k ∈ t.keys.values) :
    decide m roles (.key k) right =
      if k.columns.elems.isEmpty then .allow else .deny := by
  obtain ⟨columns, hget⟩ := SortedMap.mem_values_iff.1 hk
  have htable : m.tableOf? k.table = some t := by
    rw [((hm.tableOf?_named ht).key hget).1]
    exact ht
  cases hcolumns : k.columns.elems with
  | nil =>
      rw [decide_key, htable, hcolumns]
      exact decideColumns_nil m roles right t
  | cons name rest =>
      have hname : name ∈ k.columns := by
        change name ∈ k.columns.elems
        rw [hcolumns]
        exact List.mem_cons_self
      exact deny_key_of_column (deny_column?_in_table hm ht hdeny) htable hname

theorem deny_reference_in_table {r : Reference} (hr : r ∈ t.references) :
    decide m roles (.reference r) right = .deny := by
  have hnamed := hm.tableOf?_named ht
  obtain ⟨name, hname⟩ := r.mapping.exists_mem_fromColumns
  refine deny_reference_of_column (deny_column?_in_table hm ht hdeny) ?_ hname
  rw [(hnamed.reference (hnamed.mem_references.1 hr)).1]
  exact ht

theorem deny_foreignKey_in_table {fk : ForeignKey}
    (hfk : fk ∈ t.foreignKeys.values) :
    decide m roles (.foreignKey fk) right = .deny := by
  obtain ⟨columns, hget⟩ := SortedMap.mem_values_iff.1 hfk
  refine deny_foreignKey_of_references fun r hr => ?_
  obtain ⟨mapping, hmapping⟩ := SortedMap.mem_values_iff.1 hr
  exact deny_reference_in_table hm ht hdeny
    (Table.mem_references_iff.2 ⟨columns, fk, mapping, hget, hmapping⟩)

/-- All that is in a denied table, and the table itself. -/
theorem decide_in_table {e : Entity} (he : e ∈ t.entities.map Prod.snd) :
    decide m roles e right = if e.isBareKey then .allow else .deny := by
  simp only [Table.entities, List.map_cons, List.map_append, List.map_map,
    List.mem_cons, List.mem_append, List.mem_map, Function.comp_apply] at he
  rcases he with rfl | ⟨⟨⟨c, hc, rfl⟩ | ⟨k, hk, rfl⟩⟩ | ⟨fk, hfk, rfl⟩⟩ |
      ⟨r, hr, rfl⟩
  · exact hdeny
  · exact deny_column_in_table hm ht hdeny hc
  · exact decide_key_in_table hm ht hdeny hk
  · exact deny_foreignKey_in_table hm ht hdeny hfk
  · exact deny_reference_in_table hm ht hdeny hr

end Denied

/-! ## Models that are built -/

/-- In a model that is built by introspections and documents, all that is in a
table has the rights denied that the table has denied, except for keys over no
columns, on which they are allowed. -/
theorem Snapshot.decision_in_denied_table (s : Snapshot) (hs : s.model.Built)
    {roles : Roles} {right : Right} {t : Table} (ht : t ∈ s.model.allTables)
    (hdeny : s.decision roles (.table t) right = .deny) {e : Entity}
    (he : e ∈ t.entities.map Prod.snd) :
    s.decision roles e right = if e.isBareKey then .allow else .deny := by
  have hm := hs.orderly.toAddressable
  have htable := hm.tableOf?_of_mem_allTables ht
  have hmem {e : Entity} (he : e ∈ t.entities.map Prod.snd) :=
    Model.mem_entities_of_tableOf? htable he
  rw [decision_eq_decide hm (hmem List.mem_cons_self)] at hdeny
  rw [decision_eq_decide hm (hmem he)]
  exact decide_in_table hm htable hdeny he

/-- A shop that everyone sees, with orders that no one may read.  One of the keys
of the orders has no columns, and one of their columns refers to another. -/
def shop : SchemaDocument where
  name := some "shop"
  comment := none
  annotations := {}
  acls := {}
  tables := .ofList [("orders",
    { name := none, schema := none, kind := none, comment := none
      columns := [column "id", column "parent"]
      keys := [⟨some ["id"], [], none, {}⟩, ⟨some [], [], none, {}⟩]
      foreignKeys := [⟨some [⟨none, none, "parent"⟩],
        some [⟨none, none, "id"⟩], [], none, none, none, {}, {}, {}⟩]
      annotations := {}
      acls := .ofList [(.select, [])]
      bindings := {} })]
where
  column (name : String) : ColumnDocument :=
    ⟨some name, some (.plain "text" false false), none, none, none, {}, {}, {}⟩

/-- The model before the shop. -/
def street : Model :=
  { Model.fresh "sys" with acls := .ofList [(.enumerate, ["*"])] }

def shopping : Model :=
  (street.applySchema shop .standard).toOption.getD street

theorem shopping_built : shopping.Built :=
  .schema (.policy (.fresh "sys") _ {})
    (show street.applySchema shop .standard = .ok shopping from rfl)

def shoppingOrders : Table :=
  (shopping.table? ⟨"shop", "orders"⟩).getD (.fresh "shop" "orders" .table)

theorem shoppingOrders_mem : shoppingOrders ∈ shopping.allTables :=
  Model.mem_allTables.2 (.inl ⟨⟨"shop", "orders"⟩, rfl⟩)

theorem Snapshot.decision_in_denied_table_shopping :
    let s : Snapshot := ⟨1, shopping⟩
    shopping.Built ∧ shoppingOrders ∈ shopping.allTables ∧
      s.decision {} (.table shoppingOrders) .select = .deny ∧
      (shoppingOrders.columns.length, shoppingOrders.keys.values.length,
        shoppingOrders.foreignKeys.values.length,
        shoppingOrders.references.length) = (2, 2, 1, 1) ∧
      ∀ e ∈ shoppingOrders.entities.map Prod.snd,
        s.decision {} e .select = if e.isBareKey then .allow else .deny := by
  intro s
  have hdeny : s.decision {} (.table shoppingOrders) .select = .deny := by
    decide +kernel
  exact ⟨shopping_built, shoppingOrders_mem, hdeny, by decide +kernel,
    fun e he => s.decision_in_denied_table shopping_built shoppingOrders_mem
      hdeny he⟩

/-- A key can be read whose table cannot. -/
theorem Snapshot.bare_key_exceeds_table :
    let s : Snapshot := ⟨1, shopping⟩
    shopping.Built ∧ shoppingOrders ∈ shopping.allTables ∧
      s.decision {} (.table shoppingOrders) .select = .deny ∧
      ∃ k ∈ shoppingOrders.keys.values,
        s.decision {} (.key k) .select = .allow := by
  refine ⟨shopping_built, shoppingOrders_mem, by decide +kernel, _,
    SortedMap.mem_values_iff.2 ⟨{}, rfl⟩, by decide +kernel⟩

end GovernedCatalog
