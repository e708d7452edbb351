import GovernedCatalog.Model.Reach
import GovernedCatalog.Proofs.Model.Addition
import GovernedCatalog.Proofs.Ordered.Map
import GovernedCatalog.Proofs.Overlay.View
import GovernedCatalog.Rights.Matrix

/-!
# What all entities of a model carry

A property of overlays, which may depend on the kind of entity, holds throughout a
model if it holds of what each of its entities carries.  It is kept by every
change that puts in entities with the property only, whether or not the model is
closed.
-/

namespace GovernedCatalog

/-- A property of what entities of a kind carry. -/
abbrev OverlayProperty := StorageKind → Overlay → Prop

/-- Nothing is carried. -/
def OverlayProperty.bare : OverlayProperty := fun _ o => o = ∅

theorem OverlayProperty.bare_empty (kind : StorageKind) : bare kind ∅ := rfl

variable {P : OverlayProperty}

structure Table.Carries (P : OverlayProperty) (t : Table) : Prop where
  own : P .table t.carried
  column : ∀ c ∈ t.columns, P .column c.carried
  key : t.keys.All fun _ key => P .key key.carried
  reference : t.foreignKeys.All fun _ fk =>
    fk.references.All fun _ r => P .keyReference r.carried

structure Schema.Carries (P : OverlayProperty) (s : Schema) : Prop where
  own : P .schema s.carried
  table : s.tables.All fun _ t => t.Carries P

structure Model.Carries (P : OverlayProperty) (m : Model) : Prop where
  own : P .catalog m.carried
  schema : m.schemas.All fun _ s => s.Carries P
  system : m.systemSchema.Carries P

section Imp

variable {Q : OverlayProperty} (h : ∀ kind o, P kind o → Q kind o)

include h

theorem Table.Carries.imp {t : Table} (ht : t.Carries P) : t.Carries Q where
  own := h _ _ ht.own
  column c hc := h _ _ (ht.column c hc)
  key := ht.key.imp fun _ _ => h _ _
  reference := ht.reference.imp fun _ _ hfk => hfk.imp fun _ _ => h _ _

theorem Schema.Carries.imp {s : Schema} (hs : s.Carries P) : s.Carries Q where
  own := h _ _ hs.own
  table := hs.table.imp fun _ _ ht => ht.imp h

end Imp

@[simp] theorem UniqueKey.carried_addConstraint (key : UniqueKey)
    (constraint? : Option ConstraintName) :
    (key.addConstraint constraint?).carried = key.carried := by
  cases constraint? <;> rfl

@[simp] theorem Reference.carried_addConstraint (r : Reference)
    (constraint? : Option ConstraintName) :
    (r.addConstraint constraint?).carried = r.carried := by
  cases constraint? <;> rfl

/-! ## Tables -/

namespace Table.Carries

variable {t : Table}

/-- A bared table carries nothing, and nor does what it owns. -/
theorem bare (hempty : ∀ kind, P kind ∅) (t : Table) : t.bare.Carries P where
  own := hempty .table
  column := by
    intro c hc
    obtain ⟨_, _, rfl⟩ := List.mem_map.1 hc
    exact hempty .column
  key := SortedMap.all_mapValues fun _ _ => hempty .key
  reference := SortedMap.all_mapValues fun _ _ =>
    SortedMap.all_mapValues fun _ _ => hempty .keyReference

/-- A table without columns, keys and foreign keys. -/
theorem of_empty (hown : P .table t.carried) (hcolumns : t.columns = [])
    (hkeys : t.keys = ∅) (hforeignKeys : t.foreignKeys = ∅) : t.Carries P where
  own := hown
  column := by simp [hcolumns]
  key := hkeys ▸ SortedMap.all_empty
  reference := hforeignKeys ▸ SortedMap.all_empty

variable (ht : t.Carries P)

include ht

/-- A table with the same entities that carries something else. -/
theorem withOwn {t' : Table} (hown : P .table t'.carried)
    (hcolumns : t'.columns = t.columns) (hkeys : t'.keys = t.keys)
    (hforeignKeys : t'.foreignKeys = t.foreignKeys) : t'.Carries P where
  own := hown
  column := hcolumns ▸ ht.column
  key := hkeys ▸ ht.key
  reference := hforeignKeys ▸ ht.reference

theorem addColumn {c : Column} (hc : P .column c.carried) :
    Ensures (t.addColumn c) (Table.Carries P) := by
  intro t' h
  obtain ⟨_, rfl⟩ := Table.addColumn_eq_ok h
  refine { ht with column := fun d hd => ?_ }
  rcases List.mem_cons.1 ((Table.insertColumn_perm c t.columns).mem_iff.1 hd)
    with rfl | hd
  · exact hc
  · exact ht.column d hd

theorem updateColumn (name : String) {f : Column → Column}
    (hf : ∀ c, P .column c.carried → P .column (f c).carried) :
    (t.updateColumn name f).Carries P := by
  refine { ht with column := fun c hc => ?_ }
  obtain ⟨d, hd, rfl⟩ := List.mem_map.1 hc
  by_cases hname : (d.name == name) = true
  · rw [if_pos hname]
    exact hf d (ht.column d hd)
  · rw [if_neg hname]
    exact ht.column d hd

theorem removeColumn (name : String) : (t.removeColumn name).Carries P :=
  { ht with column := fun c hc => ht.column c (List.mem_of_mem_eraseP hc) }

theorem addKey (hempty : P .key ∅) (columns : ColumnSet)
    (constraint? : Option ConstraintName) :
    (t.addKey columns constraint?).Carries P := by
  have hfresh : P .key (UniqueKey.fresh t.path columns).carried := hempty
  refine { ht with key := (ht.key.getOrInsert hfresh).modify fun key hkey => ?_ }
  rw [UniqueKey.carried_addConstraint]
  exact hkey

theorem updateKey (columns : ColumnSet) {f : UniqueKey → UniqueKey}
    (hf : ∀ key, P .key key.carried → P .key (f key).carried) :
    (t.updateKey columns f).Carries P :=
  { ht with key := ht.key.modify hf }

theorem removeKey (columns : ColumnSet) : (t.removeKey columns).Carries P :=
  { ht with key := ht.key.erase columns }

theorem addReference {fresh : Reference} (hfresh : P .keyReference fresh.carried)
    (constraint? : Option ConstraintName) :
    (t.addReference fresh constraint?).Carries P := by
  refine { ht with
    reference := (ht.reference.getOrInsert SortedMap.all_empty).modify
      fun fk hfk => (hfk.getOrInsert hfresh).modify fun r hr => ?_ }
  rw [Reference.carried_addConstraint]
  exact hr

theorem updateReference (mapping : ReferenceMap) {f : Reference → Reference}
    (hf : ∀ r, P .keyReference r.carried → P .keyReference (f r).carried) :
    (t.updateReference mapping f).Carries P :=
  { ht with
    reference := ht.reference.modify fun _ hfk => hfk.modify hf }

theorem removeReference (mapping : ReferenceMap) :
    (t.removeReference mapping).Carries P :=
  { ht with
    reference := (ht.reference.modify fun _ hfk => hfk.erase mapping).filter _ }

/-- What is carried at an address in the table has the property. -/
theorem of_overlayAt? {a : Address} {kind : StorageKind}
    (ha : a.storageKind? = some kind) {o : Overlay}
    (ho : t.overlayAt? a = some o) : P kind o := by
  cases a with
  | catalog => cases ho
  | schema name => cases ho
  | table path =>
      cases ha
      cases ho
      exact ht.own
  | column path name =>
      cases ha
      obtain ⟨c, hc, rfl⟩ := Option.map_eq_some_iff.1 ho
      exact ht.column c (Table.column?_eq_some hc).1
  | key path columns =>
      cases ha
      obtain ⟨key, hkey, rfl⟩ := Option.map_eq_some_iff.1 ho
      exact ht.key _ key hkey
  | foreignKey path columns => cases ha
  | reference id =>
      cases ha
      obtain ⟨r, hr, rfl⟩ := Option.map_eq_some_iff.1 ho
      obtain ⟨fk, hfk, hget⟩ := Table.reference?_eq_some_iff.1 hr
      exact ht.reference _ fk hfk _ r hget

end Table.Carries

/-! ## Schemas and models -/

theorem Schema.Carries.addTable {s : Schema} (hs : s.Carries P) {t : Table}
    (ht : t.Carries P) : Ensures (s.addTable t) (Schema.Carries P) := by
  intro s' h
  unfold Schema.addTable at h
  by_cases hcontains : s.tables.contains t.name = true
  · rw [if_pos hcontains] at h
    cases h
  · rw [if_neg hcontains] at h
    cases h
    exact { hs with table := hs.table.insert ht }

theorem Schema.Carries.fresh (hempty : P .schema ∅) (name : String) :
    (Schema.fresh name).Carries P :=
  ⟨hempty, SortedMap.all_empty⟩

namespace Model.Carries

theorem fresh (hcatalog : P .catalog ∅) (hschema : P .schema ∅)
    (systemSchema : String) : (Model.fresh systemSchema).Carries P :=
  ⟨hcatalog, SortedMap.all_empty, .fresh hschema systemSchema⟩

variable {m : Model} (hm : m.Carries P)

include hm

theorem of_table? {path : TablePath} {t : Table} (ht : m.table? path = some t) :
    t.Carries P := by
  obtain ⟨s, hs, hget⟩ := table?_eq_some_iff.1 ht
  exact (hm.schema _ s hs).table _ t hget

theorem updateSchema (name : String) {f : Schema → Schema}
    (hf : ∀ s, s.Carries P → (f s).Carries P) :
    (m.updateSchema name f).Carries P :=
  { hm with schema := hm.schema.modify hf }

theorem updateTable (path : TablePath) {f : Table → Table}
    (hf : ∀ t, t.Carries P → (f t).Carries P) :
    (m.updateTable path f).Carries P :=
  hm.updateSchema path.schema fun _ hs =>
    { hs with table := hs.table.modify hf }

theorem ensureSchema (hempty : P .schema ∅) (name : String) :
    (m.ensureSchema name).Carries P :=
  { hm with schema := hm.schema.getOrInsert (.fresh hempty name) }

theorem eraseSchema (name : String) :
    { m with schemas := m.schemas.erase name }.Carries P :=
  { hm with schema := hm.schema.erase name }

theorem insertSchema {s : Schema} (hs : s.Carries P) (name : String) :
    { m with schemas := m.schemas.insert name s }.Carries P :=
  { hm with schema := hm.schema.insert hs }

theorem installSystemSchema (name : String) :
    (m.installSystemSchema name).2.Carries P := by
  unfold Model.installSystemSchema takeSchema
  cases hs : m.schemas.get? name with
  | none => exact hm.eraseSchema name
  | some s => exact { hm.eraseSchema name with system := hm.schema _ s hs }

theorem addSchema {s : Schema} (hs : s.Carries P) :
    Ensures (m.addSchema s) (Model.Carries P) := by
  unfold Model.addSchema
  exact .ite .error (.ite .error (.ok (hm.insertSchema hs s.name)))

theorem addTable (schema : String) {t : Table} (ht : t.Carries P) :
    Ensures (m.addTable schema t) (Model.Carries P) := by
  intro m' h
  obtain ⟨s, hs, h⟩ := bind_eq_ok.1 h
  obtain ⟨s', hs', h⟩ := bind_eq_ok.1 h
  cases h
  have hcarries := (hm.schema _ s (schema_eq_ok_iff.1 hs)).addTable ht s' hs'
  exact hm.updateSchema schema fun _ _ => hcarries

theorem addColumn (path : TablePath) {c : Column} (hc : P .column c.carried) :
    Ensures (m.addColumn path c) (Model.Carries P) := by
  intro m' h
  obtain ⟨t, ht, h⟩ := bind_eq_ok.1 h
  obtain ⟨t', ht', h⟩ := bind_eq_ok.1 h
  cases h
  have hcarries := (hm.of_table? (table_eq_ok_iff.1 ht)).addColumn hc t' ht'
  exact hm.updateTable path fun _ _ => hcarries

theorem addKey (hempty : P .key ∅) (path : TablePath) (columns : ColumnSet)
    (constraint? : Option ConstraintName) :
    Ensures (m.addKey path columns constraint?) (Model.Carries P) := by
  unfold Model.addKey
  refine .after fun _ => .after fun _ => .ok ?_
  exact hm.updateTable path fun _ ht => ht.addKey hempty columns constraint?

theorem addReference (hempty : P .keyReference ∅) (source : TablePath)
    (mapping : ReferenceMap) (constraint? : Option ConstraintName)
    (onDelete onUpdate : ReferentialAction) :
    Ensures (m.addReference source mapping constraint? onDelete onUpdate)
      (Model.Carries P) := by
  intro m' h
  obtain ⟨-, -, rfl⟩ := addReference_eq_ok h
  have hfresh : P .keyReference
      (Reference.fresh source mapping onDelete onUpdate).carried := hempty
  refine Model.Carries.updateTable ?_ _ fun t ht =>
    ht.updateKey mapping.toColumns fun _ hkey => hkey
  exact hm.updateTable source fun t ht => ht.addReference hfresh constraint?

theorem setAcls {a : Address} {acls : Acls}
    (hacls : ∀ kind o, a.storageKind? = some kind → P kind o →
      P kind { o with acls := acls }) : (m.setAcls a acls).Carries P := by
  cases a with
  | catalog => exact { hm with own := hacls _ _ rfl hm.own }
  | schema name =>
      exact hm.updateSchema name fun _ hs =>
        { hs with own := hacls _ _ rfl hs.own }
  | table path =>
      exact hm.updateTable path fun _ ht =>
        ht.withOwn (hacls _ _ rfl ht.own) rfl rfl rfl
  | column path name =>
      exact hm.updateTable path fun _ ht =>
        ht.updateColumn name fun _ hc => hacls _ _ rfl hc
  | key path columns => exact hm
  | foreignKey path columns => exact hm
  | reference id =>
      exact hm.updateTable id.source fun _ ht =>
        ht.updateReference id.mapping fun _ hr => hacls _ _ rfl hr

theorem setBindings {a : Address} {bindings : Bindings}
    (hbindings : ∀ kind o, a.storageKind? = some kind → P kind o →
      P kind { o with bindings := bindings }) :
    (m.setBindings a bindings).Carries P := by
  cases a with
  | table path =>
      exact hm.updateTable path fun _ ht =>
        ht.withOwn (hbindings _ _ rfl ht.own) rfl rfl rfl
  | column path name =>
      exact hm.updateTable path fun _ ht =>
        ht.updateColumn name fun _ hc => hbindings _ _ rfl hc
  | reference id =>
      exact hm.updateTable id.source fun _ ht =>
        ht.updateReference id.mapping fun _ hr => hbindings _ _ rfl hr
  | _ => exact hm

theorem setAnnotations {a : Address} {annotations : Annotations}
    (hannotations : ∀ kind o, P kind o →
      P kind { o with annotations := annotations }) :
    (m.setAnnotations a annotations).Carries P := by
  cases a with
  | catalog => exact { hm with own := hannotations _ _ hm.own }
  | schema name =>
      exact hm.updateSchema name fun _ hs =>
        { hs with own := hannotations _ _ hs.own }
  | table path =>
      exact hm.updateTable path fun _ ht =>
        ht.withOwn (hannotations _ _ ht.own) rfl rfl rfl
  | column path name =>
      exact hm.updateTable path fun _ ht =>
        ht.updateColumn name fun _ hc => hannotations _ _ hc
  | key path columns =>
      exact hm.updateTable path fun _ ht =>
        ht.updateKey columns fun _ hkey => hannotations _ _ hkey
  | foreignKey path columns => exact hm
  | reference id =>
      exact hm.updateTable id.source fun _ ht =>
        ht.updateReference id.mapping fun _ hr => hannotations _ _ hr

theorem bareAt (hempty : ∀ kind, P kind ∅) (a : Address) :
    (m.bareAt a).Carries P := by
  cases a with
  | table path => exact hm.updateTable path fun t _ => .bare hempty t
  | column path name =>
      exact hm.updateTable path fun _ ht =>
        ht.updateColumn name fun _ _ => hempty .column
  | key path columns =>
      exact hm.updateTable path fun _ ht =>
        ht.updateKey columns fun _ _ => hempty .key
  | reference id =>
      exact hm.updateTable id.source fun _ ht =>
        ht.updateReference id.mapping fun _ _ => hempty .keyReference
  | _ => exact hm

/-! ## The system schema among the visible ones -/

theorem opened (name : String) : (m.opened name).Carries P := by
  unfold Model.opened
  by_cases hname : m.namesSystemSchema name = true
  · rw [if_pos hname]
    exact hm.insertSchema hm.system name
  · rw [if_neg hname]
    exact hm

theorem closed {before : Model} (hbefore : before.Carries P) (name : String) :
    (m.closed name before).Carries P := by
  unfold Model.closed
  by_cases hname : before.namesSystemSchema name = true
  · rw [if_pos hname]
    refine { hm.eraseSchema name with system := ?_ }
    cases hs : m.schemas.get? name with
    | none => exact hbefore.system
    | some s => exact hm.schema _ s hs
  · rw [if_neg hname]
    exact hm

theorem changeAt (a : Address) {change : Model → Model}
    (hchange : ∀ m, m.Carries P → (change m).Carries P) :
    (m.changeAt a change).Carries P := by
  unfold Model.changeAt
  cases a.throughSchema? with
  | some name => exact (hchange _ (hm.opened name)).closed hm name
  | none => exact hchange _ hm

/-- What is carried at an address has the property. -/
theorem of_overlayAt? {a : Address} {kind : StorageKind}
    (ha : a.storageKind? = some kind) {o : Overlay}
    (ho : m.overlayAt? a = some o) : P kind o := by
  rcases a.outside_or_in_table with rfl | ⟨name, rfl⟩ | ⟨path, hpath⟩
  · cases ha
    cases ho
    exact hm.own
  · cases ha
    rw [overlayAt?_schema] at ho
    obtain ⟨s, hs, rfl⟩ := Option.map_eq_some_iff.1 ho
    exact (hm.schema _ s hs).own
  · rw [overlayAt?_in_table hpath] at ho
    obtain ⟨t, ht, ho⟩ := Option.bind_eq_some_iff.1 ho
    exact (hm.of_table? ht).of_overlayAt? ha ho

end Model.Carries

/-! ## Reached entities -/

namespace Model

variable {m : Model} {a : Address} {e : Entity}

/-- What is reached is visible, perhaps only with the system schema. -/
theorem visible?_of_reach (he : m.reach a = .ok e) :
    m.visible? a = some e ∨ ∃ name, (m.opened name).visible? a = some e := by
  unfold reach at he
  cases hthrough : a.throughSchema? with
  | some name =>
      rw [hthrough] at he
      exact Or.inr ⟨name, entity_eq_ok_iff.1 he⟩
  | none =>
      rw [hthrough] at he
      exact Or.inl (entity_eq_ok_iff.1 he)

theorem sameKind_of_reach (he : m.reach a = .ok e) : e.address.SameKind a := by
  rcases visible?_of_reach he with h | ⟨_, h⟩
  · exact sameKind_of_visible h
  · exact sameKind_of_visible h

theorem overlayOf_opened (name : String) :
    (m.opened name).overlayOf e = m.overlayOf e := by
  unfold opened
  by_cases hname : m.namesSystemSchema name = true
  · rw [if_pos hname]
    cases e <;> rfl
  · rw [if_neg hname]

/-- What an entity that is reached carries has the property. -/
theorem Carries.of_reach (hm : m.Carries P) (he : m.reach a = .ok e)
    {kind : StorageKind} (hkind : e.address.storageKind? = some kind) :
    P kind (m.overlayOf e) := by
  have ha : a.storageKind? = some kind := (sameKind_of_reach he).storage ▸ hkind
  rcases visible?_of_reach he with h | ⟨name, h⟩
  · exact hm.of_overlayAt? ha (Option.map_eq_some_iff.2 ⟨e, h, rfl⟩)
  · rw [← overlayOf_opened name]
    exact (hm.opened name).of_overlayAt? ha
      (Option.map_eq_some_iff.2 ⟨e, h, rfl⟩)

end Model

/-! ## Listings -/

section Listings

variable {m : Model} {e : Entity} {kind : StorageKind}
  (hkind : e.address.storageKind? = some kind)

include hkind

theorem Table.Carries.of_mem_entities {t : Table} (ht : t.Carries P)
    (he : e ∈ t.entities.map Prod.snd) : P kind (m.overlayOf e) := by
  simp only [Table.entities, List.map_cons, List.map_append, List.map_map,
    List.mem_cons, List.mem_append, List.mem_map, Function.comp_apply] at he
  rcases he with rfl | ((⟨c, hc, rfl⟩ | ⟨key, hkey, rfl⟩) | ⟨fk, _, rfl⟩) |
    ⟨r, hr, rfl⟩
  · cases hkind
    exact ht.own
  · cases hkind
    exact ht.column c hc
  · cases hkind
    exact SortedMap.all_iff_values.1 ht.key key hkey
  · cases hkind
  · cases hkind
    obtain ⟨_, fk, _, hfk, hget⟩ := Table.mem_references_iff.1 hr
    exact ht.reference _ fk hfk _ r hget

theorem Schema.Carries.of_mem_entities {s : Schema} (hs : s.Carries P)
    (he : e ∈ s.entities.map Prod.snd) : P kind (m.overlayOf e) := by
  simp only [Schema.entities, List.map_cons, List.map_flatMap, List.mem_cons,
    List.mem_flatMap] at he
  rcases he with rfl | ⟨t, ht, he⟩
  · cases hkind
    exact hs.own
  · exact (SortedMap.all_iff_values.1 hs.table t ht).of_mem_entities hkind he

/-- What each listed entity of a model carries has the property. -/
theorem Model.Carries.of_mem_entities (hm : m.Carries P)
    (he : e ∈ m.entities.map Prod.snd) : P kind (m.overlayOf e) := by
  simp only [Model.entities, List.map_cons, List.map_append, List.map_flatMap,
    List.mem_cons, List.mem_append, List.mem_flatMap] at he
  rcases he with rfl | ⟨s, hs, he⟩ | he
  · cases hkind
    exact hm.own
  · exact (SortedMap.all_iff_values.1 hm.schema s hs).of_mem_entities hkind he
  · exact hm.system.of_mem_entities hkind he

end Listings

end GovernedCatalog
