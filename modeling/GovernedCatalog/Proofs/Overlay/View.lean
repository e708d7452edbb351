import GovernedCatalog.Model.Entity
import GovernedCatalog.Proofs.Fallible
import GovernedCatalog.Proofs.Model.Listing

/-!
# The overlay of a model

What annotations, access lists and bindings lay over a model is viewed by one
look-up, of what is carried at an address.  Every change of what an entity carries
is described by what it does to this look-up.
-/

namespace GovernedCatalog

/-- What an entity carries besides its structure. -/
@[ext] structure Overlay where
  annotations : Annotations
  acls : Acls
  bindings : Bindings

instance : EmptyCollection Overlay := ⟨∅, ∅, ∅⟩

def Schema.carried (s : Schema) : Overlay := ⟨s.annotations, s.acls, ∅⟩

def Table.carried (t : Table) : Overlay := ⟨t.annotations, t.acls, t.bindings⟩

def Column.carried (c : Column) : Overlay := ⟨c.annotations, c.acls, c.bindings⟩

def UniqueKey.carried (key : UniqueKey) : Overlay := ⟨key.annotations, ∅, ∅⟩

def Reference.carried (r : Reference) : Overlay :=
  ⟨r.annotations, r.acls, r.bindings⟩

/-- The kind of an entity with access lists. -/
def Address.aclKind? : Address → Option AclKind
  | .catalog => some .catalog
  | .schema _ => some .schema
  | .table _ => some .table
  | .column _ _ => some .column
  | .key _ _ | .foreignKey _ _ => none
  | .reference _ => some .keyReference

/-- The kind of an entity with bindings. -/
def Address.bindingKind? : Address → Option AclKind
  | .catalog | .schema _ | .key _ _ | .foreignKey _ _ => none
  | .table _ => some .table
  | .column _ _ => some .column
  | .reference _ => some .keyReference

/-- The kind of the entity at an address, if rows are stored for it. -/
def Address.storageKind? : Address → Option StorageKind
  | .catalog => some .catalog
  | .schema _ => some .schema
  | .table _ => some .table
  | .column _ _ => some .column
  | .key _ _ => some .key
  | .foreignKey _ _ => none
  | .reference _ => some .keyReference

/-- The addresses are of entities of one kind. -/
structure Address.SameKind (a b : Address) : Prop where
  storage : a.storageKind? = b.storageKind?
  acl : a.aclKind? = b.aclKind?
  binding : a.bindingKind? = b.bindingKind?

namespace Table

theorem foreignKey_eq_ok_iff {t : Table} {columns : ColumnSet}
    {fk : ForeignKey} :
    t.foreignKey columns = .ok fk ↔ t.foreignKeys.get? columns = some fk := by
  unfold Table.foreignKey
  cases t.foreignKeys.get? columns <;> simp

/-- What is carried at an address in the table. -/
def overlayAt? (t : Table) : Address → Option Overlay
  | .catalog | .schema _ => none
  | .table _ => some t.carried
  | .column _ name => (t.column? name).map Column.carried
  | .key _ columns => (t.key? columns).map UniqueKey.carried
  | .foreignKey _ columns => (t.foreignKeys.get? columns).map fun _ => ∅
  | .reference id => (t.reference? id.mapping).map Reference.carried

theorem column?_updateColumn {t : Table} {f : Column → Column}
    (hname : ∀ c, (f c).name = c.name) (name name' : String) :
    (t.updateColumn name f).column? name' =
      if name' = name then (t.column? name).map f else t.column? name' := by
  have hsame : ∀ c : Column,
      (if c.name == name then f c else c).name = c.name := by
    intro c
    by_cases hc : (c.name == name) = true
    · rw [if_pos hc, hname]
    · rw [if_neg hc]
  unfold updateColumn column?
  induction t.columns with
  | nil => simp
  | cons c rest ih =>
      simp only [List.map_cons, List.find?_cons, hsame]
      by_cases hc : c.name = name'
      · subst hc
        by_cases hname' : c.name = name <;> simp [hname']
      · have hne : (c.name == name') = false := by simpa using hc
        rw [hne]
        simp only [ih]
        by_cases hname' : name' = name
        · subst hname'
          simp [hne]
        · simp [hname']

/-! ## Changes in a table

Each one changes what is carried at one address of the table. -/

variable (t : Table) (g : Overlay → Overlay) {path : TablePath} {a : Address}

theorem overlayAt?_own {t' : Table} (hcolumns : t'.columns = t.columns)
    (hkeys : t'.keys = t.keys) (hforeignKeys : t'.foreignKeys = t.foreignKeys)
    (hcarried : t'.carried = g t.carried)
    (ha : a.tablePath? = some path) :
    t'.overlayAt? a =
      if a = .table path then (t.overlayAt? a).map g else t.overlayAt? a := by
  cases a with
  | catalog => cases ha
  | schema name => cases ha
  | table path' =>
      cases ha
      simp [overlayAt?, hcarried]
  | column path' name => simp [overlayAt?, column?, hcolumns]
  | key path' columns => simp [overlayAt?, key?, hkeys]
  | foreignKey path' columns => simp [overlayAt?, hforeignKeys]
  | reference id => simp [overlayAt?, reference?, hforeignKeys]

theorem overlayAt?_updateColumn (name : String) {f : Column → Column}
    (hname : ∀ c, (f c).name = c.name)
    (hcarried : ∀ c, (f c).carried = g c.carried)
    (ha : a.tablePath? = some path) :
    (t.updateColumn name f).overlayAt? a =
      if a = .column path name then (t.overlayAt? a).map g
      else t.overlayAt? a := by
  cases a with
  | column path' name' =>
      cases ha
      have hcomp : Column.carried ∘ f = g ∘ Column.carried := funext hcarried
      by_cases heq : name' = name
      · simp [overlayAt?, column?_updateColumn hname, heq, hcomp]
      · simp [overlayAt?, column?_updateColumn hname, heq]
  | _ => rfl

theorem overlayAt?_updateKey (columns : ColumnSet) {f : UniqueKey → UniqueKey}
    (hcarried : ∀ key, (f key).carried = g key.carried)
    (ha : a.tablePath? = some path) :
    (t.updateKey columns f).overlayAt? a =
      if a = .key path columns then (t.overlayAt? a).map g
      else t.overlayAt? a := by
  cases a with
  | key path' columns' =>
      cases ha
      have hcomp : UniqueKey.carried ∘ f = g ∘ UniqueKey.carried :=
        funext hcarried
      by_cases heq : columns' = columns
      · simp [overlayAt?, heq, hcomp]
      · simp [overlayAt?, heq]
  | _ => rfl

theorem overlayAt?_updateReference (mapping : ReferenceMap)
    {f : Reference → Reference}
    (hcarried : ∀ r, (f r).carried = g r.carried)
    (ha : a.tablePath? = some path) :
    (t.updateReference mapping f).overlayAt? a =
      if a = .reference ⟨path, mapping⟩ then (t.overlayAt? a).map g
      else t.overlayAt? a := by
  cases a with
  | foreignKey path' columns =>
      simp only [overlayAt?, updateReference, SortedMap.get?_modify]
      by_cases heq : columns = mapping.fromColumns
      · simp [heq, Function.comp_def]
      · simp [heq]
  | reference id =>
      obtain ⟨source, mapping'⟩ := id
      cases ha
      have hcomp : Reference.carried ∘ f = g ∘ Reference.carried :=
        funext hcarried
      by_cases heq : mapping' = mapping
      · simp [overlayAt?, reference?_updateReference, heq, hcomp]
      · simp [overlayAt?, reference?_updateReference, heq]
  | _ => rfl

end Table

namespace Model

variable {m : Model}

/-- What the catalog itself carries. -/
def carried (m : Model) : Overlay := ⟨m.annotations, m.acls, ∅⟩

/-- What an entity of the model carries. -/
def overlayOf (m : Model) (e : Entity) : Overlay where
  annotations := (m.annotationsOf? e).getD ∅
  acls := ((m.aclsOf? e).map Prod.snd).getD ∅
  bindings := ((bindingsOf? e).map Prod.snd).getD ∅

/-- The entity at an address of the visible schemas. -/
def visible? (m : Model) : Address → Option Entity
  | .catalog => some .catalog
  | .schema name => (m.schemas.get? name).map Entity.schema
  | .table path => (m.table? path).map Entity.table
  | .column path name =>
      (m.table? path).bind fun t => (t.column? name).map Entity.column
  | .key path columns => (m.key? path columns).map Entity.key
  | .foreignKey path columns =>
      (m.table? path).bind fun t =>
        (t.foreignKeys.get? columns).map Entity.foreignKey
  | .reference id => (m.reference? id).map Entity.reference

theorem column_eq_ok_iff {path : TablePath} {name : String} {c : Column} :
    m.column path name = .ok c ↔
      ∃ t, m.table? path = some t ∧ t.column? name = some c := by
  unfold Model.column
  simp only [bind_eq_ok, table_eq_ok_iff, Table.column_eq_ok_iff]

theorem entity_eq_ok_iff {a : Address} {e : Entity} :
    m.entity a = .ok e ↔ m.visible? a = some e := by
  cases a with
  | catalog => simp [entity, visible?]
  | schema name => simp [entity, visible?, map_eq_ok, schema_eq_ok_iff]
  | table path => simp [entity, visible?, map_eq_ok, table_eq_ok_iff]
  | column path name =>
      simp only [entity, visible?, map_eq_ok, column_eq_ok_iff,
        Option.bind_eq_some_iff, Option.map_eq_some_iff]
      constructor
      · rintro ⟨c, ⟨t, ht, hc⟩, rfl⟩
        exact ⟨t, ht, c, hc, rfl⟩
      · rintro ⟨t, ht, c, hc, rfl⟩
        exact ⟨c, ⟨t, ht, hc⟩, rfl⟩
  | key path columns =>
      simp only [entity, visible?, bind_eq_ok, table_eq_ok_iff,
        Table.key_eq_ok_iff, Option.map_eq_some_iff, key?_eq_some_iff]
      constructor
      · rintro ⟨t, ht, key, hkey, h⟩
        cases h
        exact ⟨key, ⟨t, ht, hkey⟩, rfl⟩
      · rintro ⟨key, ⟨t, ht, hkey⟩, rfl⟩
        exact ⟨t, ht, key, hkey, rfl⟩
  | foreignKey path columns =>
      simp only [entity, visible?, bind_eq_ok, table_eq_ok_iff,
        Table.foreignKey_eq_ok_iff, Option.bind_eq_some_iff,
        Option.map_eq_some_iff]
      constructor
      · rintro ⟨t, ht, fk, hfk, h⟩
        cases h
        exact ⟨t, ht, fk, hfk, rfl⟩
      · rintro ⟨t, ht, fk, hfk, rfl⟩
        exact ⟨t, ht, fk, hfk, rfl⟩
  | reference id => simp [entity, visible?, map_eq_ok, reference_eq_ok_iff]

/-- What is carried at an address of the visible schemas. -/
def overlayAt? (m : Model) (a : Address) : Option Overlay :=
  (m.visible? a).map m.overlayOf

section Kinds

theorem aclsOf?_eq (m : Model) (e : Entity) :
    m.aclsOf? e =
      e.address.aclKind?.map fun kind => (kind, (m.overlayOf e).acls) := by
  cases e <;> rfl

theorem bindingsOf?_eq (m : Model) (e : Entity) :
    bindingsOf? e =
      e.address.bindingKind?.map fun kind => (kind, (m.overlayOf e).bindings) := by
  cases e <;> rfl

variable {a : Address} {e : Entity}

theorem annotationsOf?_of_visible (h : m.visible? a = some e)
    (ha : ∀ path columns, a ≠ .foreignKey path columns) :
    m.annotationsOf? e = some (m.overlayOf e).annotations := by
  cases e with
  | foreignKey fk =>
      cases a <;> simp [visible?, Option.bind_eq_some_iff] at h
      exact absurd rfl (ha _ _)
  | _ => rfl

/-- An entity is of the kind that its address is of. -/
theorem sameKind_of_visible (h : m.visible? a = some e) :
    e.address.SameKind a := by
  cases a <;> cases e <;>
    first | exact ⟨rfl, rfl, rfl⟩ | simp [visible?, Option.bind_eq_some_iff] at h

theorem aclsOf?_of_visible (h : m.visible? a = some e) :
    m.aclsOf? e = a.aclKind?.map fun kind => (kind, (m.overlayOf e).acls) := by
  rw [aclsOf?_eq, (sameKind_of_visible h).acl]

theorem bindingsOf?_of_visible (h : m.visible? a = some e) :
    bindingsOf? e =
      a.bindingKind?.map fun kind => (kind, (m.overlayOf e).bindings) := by
  rw [bindingsOf?_eq m, (sameKind_of_visible h).binding]

end Kinds

section Addresses

variable (m) (path : TablePath)

@[simp] theorem overlayAt?_catalog : m.overlayAt? .catalog = some m.carried := rfl

@[simp] theorem overlayAt?_schema (name : String) :
    m.overlayAt? (.schema name) = (m.schemas.get? name).map Schema.carried :=
  Option.map_map ..

@[simp] theorem overlayAt?_table :
    m.overlayAt? (.table path) = (m.table? path).map Table.carried :=
  Option.map_map ..

@[simp] theorem overlayAt?_column (name : String) :
    m.overlayAt? (.column path name) =
      (m.table? path).bind fun t => (t.column? name).map Column.carried := by
  unfold overlayAt? visible?
  rw [Option.map_bind]
  exact congrArg _ (funext fun t => Option.map_map ..)

@[simp] theorem overlayAt?_key (columns : ColumnSet) :
    m.overlayAt? (.key path columns) =
      (m.key? path columns).map UniqueKey.carried :=
  Option.map_map ..

@[simp] theorem overlayAt?_foreignKey (columns : ColumnSet) :
    m.overlayAt? (.foreignKey path columns) =
      (m.table? path).bind fun t =>
        (t.foreignKeys.get? columns).map fun _ => ∅ := by
  unfold overlayAt? visible?
  rw [Option.map_bind]
  exact congrArg _ (funext fun t => Option.map_map ..)

@[simp] theorem overlayAt?_reference (id : ReferenceId) :
    m.overlayAt? (.reference id) = (m.reference? id).map Reference.carried :=
  Option.map_map ..

end Addresses

/-! ## Changes of what one entity carries -/

/-- The same tables carry the same. -/
theorem overlayAt?_of_same_tables {m' : Model} (htable : m'.table? = m.table?)
    {a : Address} (hcatalog : a ≠ .catalog) (hschema : ∀ name, a ≠ .schema name) :
    m'.overlayAt? a = m.overlayAt? a := by
  cases a with
  | catalog => exact absurd rfl hcatalog
  | schema name => exact absurd rfl (hschema name)
  | table path => simp [htable]
  | column path name => simp [htable]
  | key path columns => simp [key?, htable]
  | foreignKey path columns => simp [htable]
  | reference id => simp [reference?, htable]

theorem visible?_in_table {path : TablePath} {a : Address}
    (ha : a.tablePath? = some path) :
    m.visible? a = (m.table? path).bind fun t => t.entity? a := by
  cases a with
  | catalog => cases ha
  | schema name => cases ha
  | table path' =>
      cases ha
      change (m.table? path).map Entity.table = _
      cases m.table? path <;> rfl
  | key path' columns =>
      cases ha
      exact Option.map_bind ..
  | reference id =>
      cases ha
      exact Option.map_bind ..
  | _ =>
      cases ha
      rfl

theorem map_overlayOf_entity? (m : Model) (t : Table) (a : Address) :
    (t.entity? a).map m.overlayOf = t.overlayAt? a := by
  unfold Table.entity? Table.overlayAt?
  cases a <;> simp only [Option.map_map] <;> rfl

theorem overlayAt?_in_table {path : TablePath} {a : Address}
    (ha : a.tablePath? = some path) :
    m.overlayAt? a = (m.table? path).bind fun t => t.overlayAt? a := by
  unfold overlayAt?
  rw [visible?_in_table ha, Option.map_bind]
  exact congrArg _ (funext fun t => map_overlayOf_entity? m t a)

variable (m) (g : Overlay → Overlay) {a : Address}

theorem overlayAt?_updateSchema (name : String) {f : Schema → Schema}
    (htables : ∀ s, (f s).tables = s.tables)
    (hcarried : ∀ s, (f s).carried = g s.carried) :
    (m.updateSchema name f).overlayAt? a =
      if a = .schema name then (m.overlayAt? a).map g else m.overlayAt? a := by
  have htable := table?_updateSchema m name htables
  by_cases ha : a = .schema name
  · subst ha
    have hcomp : Schema.carried ∘ f = g ∘ Schema.carried := funext hcarried
    simp [updateSchema, Option.map_map, hcomp]
  · rw [if_neg ha]
    cases a with
    | catalog => rfl
    | schema name' =>
        have hname : name' ≠ name := fun h => ha (h ▸ rfl)
        simp [updateSchema, hname]
    | _ => exact overlayAt?_of_same_tables htable (by simp) (by simp)

/-- A change at an address of a table, seen from the model. -/
theorem overlayAt?_updateTable {path : TablePath} {f : Table → Table}
    {changed : Address} (hchanged : changed.tablePath? = some path)
    (hf : ∀ t : Table, ∀ {a : Address}, a.tablePath? = some path →
      (f t).overlayAt? a =
        if a = changed then (t.overlayAt? a).map g else t.overlayAt? a) :
    (m.updateTable path f).overlayAt? a =
      if a = changed then (m.overlayAt? a).map g else m.overlayAt? a := by
  rcases a.outside_or_in_table with rfl | ⟨name, rfl⟩ | ⟨path', hpath⟩
  · rw [if_neg]
    · rfl
    · rintro rfl
      cases hchanged
  · rw [if_neg]
    · rw [overlayAt?_schema, overlayAt?_schema, schemas_updateTable]
      by_cases hname : name = path.schema
      · rw [if_pos hname, Option.map_map]
        rfl
      · rw [if_neg hname]
    · rintro rfl
      cases hchanged
  · rw [overlayAt?_in_table hpath, overlayAt?_in_table hpath,
      table?_updateTable]
    by_cases heq : path' = path
    · subst heq
      cases m.table? path' with
      | none => simp
      | some t => simpa using hf t hpath
    · have ha : a ≠ changed := by
        rintro rfl
        rw [hchanged] at hpath
        exact heq (Option.some.inj hpath).symm
      rw [if_neg heq, if_neg ha]

theorem overlayAt?_updateOwn (path : TablePath) {f : Table → Table}
    (hcolumns : ∀ t, (f t).columns = t.columns)
    (hkeys : ∀ t, (f t).keys = t.keys)
    (hforeignKeys : ∀ t, (f t).foreignKeys = t.foreignKeys)
    (hcarried : ∀ t, (f t).carried = g t.carried) :
    (m.updateTable path f).overlayAt? a =
      if a = .table path then (m.overlayAt? a).map g else m.overlayAt? a :=
  overlayAt?_updateTable m g rfl fun t _ ha =>
    t.overlayAt?_own g (hcolumns t) (hkeys t) (hforeignKeys t) (hcarried t) ha

theorem overlayAt?_updateColumn (path : TablePath) (name : String)
    {f : Column → Column} (hname : ∀ c, (f c).name = c.name)
    (hcarried : ∀ c, (f c).carried = g c.carried) :
    (m.updateColumn path name f).overlayAt? a =
      if a = .column path name then (m.overlayAt? a).map g
      else m.overlayAt? a :=
  overlayAt?_updateTable m g rfl fun t _ ha =>
    t.overlayAt?_updateColumn g name hname hcarried ha

theorem overlayAt?_updateKey (path : TablePath) (columns : ColumnSet)
    {f : UniqueKey → UniqueKey}
    (hcarried : ∀ key, (f key).carried = g key.carried) :
    (m.updateKey path columns f).overlayAt? a =
      if a = .key path columns then (m.overlayAt? a).map g
      else m.overlayAt? a :=
  overlayAt?_updateTable m g rfl fun t _ ha =>
    t.overlayAt?_updateKey g columns hcarried ha

theorem overlayAt?_updateReference (id : ReferenceId)
    {f : Reference → Reference} (hcarried : ∀ r, (f r).carried = g r.carried) :
    (m.updateReference id f).overlayAt? a =
      if a = .reference id then (m.overlayAt? a).map g else m.overlayAt? a :=
  overlayAt?_updateTable m g rfl fun t _ ha =>
    t.overlayAt?_updateReference g id.mapping hcarried ha

theorem overlayAt?_catalog_changed {m' : Model}
    (hschemas : m'.schemas = m.schemas) (hcarried : m'.carried = g m.carried) :
    m'.overlayAt? a =
      if a = .catalog then (m.overlayAt? a).map g else m.overlayAt? a := by
  have htable : m'.table? = m.table? := by
    unfold table?
    rw [hschemas]
  cases a with
  | catalog => simp [hcarried]
  | schema name => simp [hschemas]
  | _ => exact overlayAt?_of_same_tables htable (by simp) (by simp)

/-! ## Overlays that are replaced -/

theorem overlayAt?_setAnnotations {changed : Address}
    (hchanged : ∀ path columns, changed ≠ .foreignKey path columns)
    (annotations : Annotations) :
    (m.setAnnotations changed annotations).overlayAt? a =
      if a = changed then
        (m.overlayAt? a).map fun o => { o with annotations := annotations }
      else m.overlayAt? a := by
  cases changed with
  | catalog => exact overlayAt?_catalog_changed m _ rfl rfl
  | schema name =>
      exact overlayAt?_updateSchema m _ name (fun _ => rfl) fun _ => rfl
  | table path =>
      exact overlayAt?_updateOwn m _ path (fun _ => rfl) (fun _ => rfl)
        (fun _ => rfl) fun _ => rfl
  | column path name =>
      exact overlayAt?_updateColumn m _ path name (fun _ => rfl) fun _ => rfl
  | key path columns =>
      exact overlayAt?_updateKey m _ path columns fun _ => rfl
  | foreignKey path columns => exact absurd rfl (hchanged path columns)
  | reference id => exact overlayAt?_updateReference m _ id fun _ => rfl

theorem overlayAt?_setAcls {changed : Address}
    (hchanged : changed.aclKind?.isSome = true) (acls : Acls) :
    (m.setAcls changed acls).overlayAt? a =
      if a = changed then (m.overlayAt? a).map fun o => { o with acls := acls }
      else m.overlayAt? a := by
  cases changed with
  | catalog => exact overlayAt?_catalog_changed m _ rfl rfl
  | schema name =>
      exact overlayAt?_updateSchema m _ name (fun _ => rfl) fun _ => rfl
  | table path =>
      exact overlayAt?_updateOwn m _ path (fun _ => rfl) (fun _ => rfl)
        (fun _ => rfl) fun _ => rfl
  | column path name =>
      exact overlayAt?_updateColumn m _ path name (fun _ => rfl) fun _ => rfl
  | key path columns => cases hchanged
  | foreignKey path columns => cases hchanged
  | reference id => exact overlayAt?_updateReference m _ id fun _ => rfl

theorem overlayAt?_setBindings {changed : Address}
    (hchanged : changed.bindingKind?.isSome = true) (bindings : Bindings) :
    (m.setBindings changed bindings).overlayAt? a =
      if a = changed then
        (m.overlayAt? a).map fun o => { o with bindings := bindings }
      else m.overlayAt? a := by
  cases changed with
  | table path =>
      exact overlayAt?_updateOwn m _ path (fun _ => rfl) (fun _ => rfl)
        (fun _ => rfl) fun _ => rfl
  | column path name =>
      exact overlayAt?_updateColumn m _ path name (fun _ => rfl) fun _ => rfl
  | reference id => exact overlayAt?_updateReference m _ id fun _ => rfl
  | catalog => cases hchanged
  | schema name => cases hchanged
  | key path columns => cases hchanged
  | foreignKey path columns => cases hchanged

end Model

end GovernedCatalog
