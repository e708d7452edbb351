import GovernedCatalog.Proofs.Rights.Memory

/-!
# Rights without the system schema

While no visible schema has the name of the system schema, the rules never look
into the system schema to decide on what is visible.  Such decisions are those
on the model with an empty system schema, which is addressable whatever the
system schema holds.
-/

namespace GovernedCatalog

namespace Model

/-- The model with an empty system schema. -/
def visiblePart (m : Model) : Model :=
  { m with systemSchema := m.systemSchema.emptied }

variable {m : Model}

theorem Named.visiblePart_addressable (hm : m.Named)
    (hapart : m.schemas.get? m.systemSchema.name = none) :
    m.visiblePart.Addressable where
  schema_name := hm.schema_name
  table := hm.table
  system_table h := by cases h
  system_apart := hapart

theorem Closed.visiblePart (hm : m.Closed) : m.visiblePart.Closed where
  schema_name := hm.schema_name
  table := hm.table
  outbound := hm.outbound
  inbound := hm.inbound

theorem schema_ne_of_tableOf? {path : TablePath} {t : Table}
    (ht : m.visiblePart.tableOf? path = some t) :
    path.schema ≠ m.systemSchema.name := by
  intro hname
  obtain ⟨s, hs, hget⟩ := Option.bind_eq_some_iff.1 ht
  have hsystem : m.systemSchema.emptied = s :=
    Option.some.inj ((if_pos hname).symm.trans hs)
  subst hsystem
  cases hget

theorem schemaOf?_visiblePart {name : String}
    (h : name ≠ m.systemSchema.name) :
    m.schemaOf? name = m.visiblePart.schemaOf? name :=
  (if_neg h).trans (if_neg h).symm

theorem tableOf?_visiblePart {path : TablePath}
    (h : path.schema ≠ m.systemSchema.name) :
    m.tableOf? path = m.visiblePart.tableOf? path := by
  unfold tableOf?
  rw [schemaOf?_visiblePart h]

end Model

theorem Table.aclFor?_visiblePart {m : Model} {t : Table}
    (h : t.schema ≠ m.systemSchema.name) :
    t.aclFor? m = t.aclFor? m.visiblePart := by
  funext right
  unfold Table.aclFor?
  rw [Model.schemaOf?_visiblePart h]
  rfl

/-! ## The rules -/

namespace Rule

variable {μ : Type → Type} [Monad μ] (known : Recall μ) {m : Model}
  (roles : Roles) (right : Right)

theorem onTable_visiblePart {t : Table} (ht : m.visiblePart.Holds (.table t)) :
    onTable known m roles t right =
      onTable known m.visiblePart roles t right := by
  have hschema : t.schema ≠ m.systemSchema.name :=
    Model.schema_ne_of_tableOf? (Model.holds_table.1 ht)
  unfold onTable
  rw [Model.schemaOf?_visiblePart hschema, Table.aclFor?_visiblePart hschema]
  rfl

variable (hm : m.visiblePart.Addressable)

include hm

theorem onColumn_visiblePart {c : Column}
    (hc : m.visiblePart.Holds (.column c)) :
    onColumn known m roles c right =
      onColumn known m.visiblePart roles c right := by
  obtain ⟨t, ht, _⟩ := Model.holds_column.1 hc
  have hholds := hm.holds_of_tableOf? ht
  have hacl : c.aclFor? m t = c.aclFor? m.visiblePart t := by
    funext right
    unfold Column.aclFor?
    rw [Table.aclFor?_visiblePart
      (Model.schema_ne_of_tableOf? (Model.holds_table.1 hholds))]
  unfold onColumn
  rw [Model.tableOf?_visiblePart (Model.schema_ne_of_tableOf? ht)]
  simp only [ht, onTable_visiblePart known roles right hholds, hacl]

variable {path : TablePath} {t : Table}
  (ht : m.visiblePart.tableOf? path = some t)

include ht

theorem onColumns_visiblePart (names : List String) :
    onColumns known m roles t right names =
      onColumns known m.visiblePart roles t right names := by
  induction names with
  | nil => rfl
  | cons name rest ih =>
      unfold onColumns
      rw [ih]
      cases hc : t.column? name with
      | none => rfl
      | some c =>
          have hholds := hm.holds_of_column? ht hc
          simp only [onColumn_visiblePart known roles right hm hholds]

theorem someDenied_visiblePart (names : List String) :
    someDenied known m roles t right names =
      someDenied known m.visiblePart roles t right names := by
  induction names with
  | nil => rfl
  | cons name rest ih =>
      unfold someDenied
      rw [ih]
      cases hc : t.column? name with
      | none => rfl
      | some c =>
          have hholds := hm.holds_of_column? ht hc
          simp only [onColumn_visiblePart known roles right hm hholds]

omit ht

theorem onKey_visiblePart {k : UniqueKey} (hk : m.visiblePart.Holds (.key k)) :
    onKey known m roles k right = onKey known m.visiblePart roles k right := by
  obtain ⟨t, ht, _⟩ := Model.holds_key.1 hk
  unfold onKey
  rw [Model.tableOf?_visiblePart (Model.schema_ne_of_tableOf? ht)]
  simp only [ht, onColumns_visiblePart known roles right hm ht]

theorem onReference_visiblePart {r : Reference}
    (hr : m.visiblePart.Holds (.reference r)) :
    onReference known m roles r right =
      onReference known m.visiblePart roles r right := by
  obtain ⟨t, ht, _⟩ := Model.holds_reference.1 hr
  have hholds := hm.holds_of_tableOf? ht
  have hacl : r.aclFor? m t = r.aclFor? m.visiblePart t := by
    funext right
    unfold Reference.aclFor?
    rw [Table.aclFor?_visiblePart
      (Model.schema_ne_of_tableOf? (Model.holds_table.1 hholds))]
  have hsame : m.referencedKey r.mapping =
      m.visiblePart.referencedKey r.mapping := rfl
  unfold onReference
  rw [Model.tableOf?_visiblePart (Model.schema_ne_of_tableOf? ht), hsame]
  cases hkey : m.visiblePart.referencedKey r.mapping with
  | error e => rfl
  | ok k =>
      have hk := hm.holds_of_referencedKey hkey
      simp only [ht, onKey_visiblePart known roles .enumerate hm hk,
        someDenied_visiblePart known roles right hm ht, hacl]

theorem onReferences_visiblePart {references : List Reference}
    (h : ∀ r ∈ references, m.visiblePart.Holds (.reference r)) :
    onReferences known m roles right references =
      onReferences known m.visiblePart roles right references := by
  induction references with
  | nil => rfl
  | cons r rest ih =>
      unfold onReferences
      rw [ih fun r' hr' => h r' (List.mem_cons_of_mem _ hr'),
        onReference_visiblePart known roles right hm (h r List.mem_cons_self)]

theorem onForeignKey_visiblePart {fk : ForeignKey}
    (hfk : m.visiblePart.Holds (.foreignKey fk)) :
    onForeignKey known m roles fk right =
      onForeignKey known m.visiblePart roles fk right := by
  obtain ⟨t, ht, hget⟩ := Model.holds_foreignKey.1 hfk
  have hreferences : ∀ r ∈ fk.references.values,
      m.visiblePart.Holds (.reference r) := by
    intro r hr
    obtain ⟨mapping, hmapping⟩ := SortedMap.mem_values_iff.1 hr
    exact hm.holds_of_mem_references ht
      (Table.mem_references_iff.2 ⟨_, fk, mapping, hget, hmapping⟩)
  unfold onForeignKey
  rw [Model.tableOf?_visiblePart (Model.schema_ne_of_tableOf? ht)]
  simp only [ht, onColumns_visiblePart known roles right hm ht,
    onReferences_visiblePart known roles right hm hreferences]

/-- What is visible is decided without the system schema. -/
theorem decide_visiblePart {e : Entity} (he : m.visiblePart.Holds e) :
    decide known m roles e right =
      decide known m.visiblePart roles e right := by
  cases e with
  | catalog => rfl
  | schema s => rfl
  | table t => exact onTable_visiblePart known roles right he
  | column c => exact onColumn_visiblePart known roles right hm he
  | key k => exact onKey_visiblePart known roles right hm he
  | foreignKey fk => exact onForeignKey_visiblePart known roles right hm he
  | reference r => exact onReference_visiblePart known roles right hm he

end Rule

/-- A snapshot answers from the decisions on its visible part. -/
theorem Snapshot.answers_visiblePart (s : Snapshot)
    (hm : s.model.visiblePart.Addressable) {models : Nat → Model}
    (hmodels : models s.stamp = s.model.visiblePart) (roles : Roles) :
    Answers models roles (s.ask roles) s.model.visiblePart :=
  s.answers_of_rules hm hmodels fun he right =>
    Rule.decide_visiblePart _ roles right hm he

end GovernedCatalog
