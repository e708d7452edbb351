import GovernedCatalog.Proofs.Introspection.Split
import GovernedCatalog.Proofs.Model.Document

/-!
# Where models come from

Models are built by introspections and documents.  An introspected model need not
be closed, but its visible tables are well formed and its entities are told apart.
Documents keep it that way, since they leave the system schema alone.
-/

namespace GovernedCatalog.Model

/-- An addressable model with well-formed visible tables. -/
structure Orderly (m : Model) : Prop extends m.Addressable where
  wellFormed : ∀ {path : TablePath} {t : Table},
    m.table? path = some t → t.WellFormed path

namespace Orderly

variable {m : Model} (hm : m.Orderly)

include hm

/-- A model with the same system schema and other visible ones. -/
theorem of_visible {m' : Model} (hsystem : m'.systemSchema = m.systemSchema)
    (hschema : ∀ {name : String} {s : Schema},
      m'.schemas.get? name = some s → s.name = name)
    (hapart : m'.schemas.get? m.systemSchema.name = none)
    (htable : ∀ {path : TablePath} {t : Table},
      m'.table? path = some t → t.WellFormed path) : m'.Orderly where
  schema_name := hschema
  table ht := (htable ht).toNamed
  system_table := by
    rw [hsystem]
    exact hm.system_table
  system_apart := by
    rw [hsystem]
    exact hapart
  wellFormed := htable

theorem updateTable {path : TablePath} {f : Table → Table}
    (hf : ∀ t, m.table? path = some t → (f t).WellFormed path) :
    (m.updateTable path f).Orderly := by
  refine hm.of_visible rfl (schema_name_updateTable hm.schema_name path f) ?_
    (wellFormed_updateTable hm.wellFormed hf)
  rw [schemas_updateTable]
  by_cases hname : m.systemSchema.name = path.schema
  · rw [if_pos hname, hm.system_apart]
    rfl
  · rw [if_neg hname]
    exact hm.system_apart

theorem addSchema {s : Schema} (hs : s.tables = ∅) :
    Ensures (m.addSchema s) Orderly := by
  intro m' h
  have hreserved : m.systemSchema.name ≠ s.name := by
    intro hname
    unfold Model.addSchema at h
    rw [if_pos hname.symm] at h
    cases h
  obtain ⟨-, rfl⟩ := addSchema_eq_ok h
  have halone := alone_closed hs
  refine hm.of_visible rfl (fun {name s'} hget => ?_) ?_ fun {path t} ht => ?_
  · rw [SortedMap.get?_insert] at hget
    by_cases hname : name = s.name
    · rw [if_pos hname, Option.some.injEq] at hget
      rw [← hget, hname]
    · rw [if_neg hname] at hget
      exact hm.schema_name hget
  · exact (SortedMap.get?_insert ..).trans
      ((if_neg hreserved).trans hm.system_apart)
  · rw [table?_insertSchema] at ht
    by_cases hname : path.schema = s.name
    · rw [if_pos hname] at ht
      exact halone.table ht
    · rw [if_neg hname] at ht
      exact hm.wellFormed ht

theorem addTable {schema : String} {t : Table}
    (ht : t.WellFormed ⟨schema, t.name⟩) :
    Ensures (m.addTable schema t) Orderly := by
  intro m' h
  obtain ⟨s, hs, -, rfl⟩ := addTable_eq_ok h
  have hnamed := hm.schema_name hs
  refine hm.of_visible rfl (fun {name s'} hget => ?_) ?_ fun {path t'} hget => ?_
  · rw [schemas_insertTable hs] at hget
    by_cases hname : name = schema
    · rw [if_pos hname, Option.some.injEq] at hget
      rw [← hget, hname]
      exact hnamed
    · rw [if_neg hname] at hget
      exact hm.schema_name hget
  · rw [schemas_insertTable hs, if_neg]
    · exact hm.system_apart
    · rintro rfl
      rw [hm.system_apart] at hs
      cases hs
  · rw [table?_insertTable hs] at hget
    by_cases hpath : path = ⟨schema, t.name⟩
    · rw [if_pos hpath, Option.some.injEq] at hget
      rw [← hget, hpath]
      exact ht
    · rw [if_neg hpath] at hget
      exact hm.wellFormed hget

theorem addReference {source : TablePath} {mapping : ReferenceMap}
    {constraint? : Option ConstraintName}
    {onDelete onUpdate : ReferentialAction} :
    Ensures (m.addReference source mapping constraint? onDelete onUpdate)
      Orderly := by
  intro m' h
  obtain ⟨-, ⟨t, ht, hcolumns⟩, rfl⟩ := addReference_eq_ok h
  have hextended : (m.updateTable source (·.addReference
      (.fresh source mapping onDelete onUpdate) constraint?)).Orderly := by
    refine hm.updateTable fun t' ht' => ?_
    cases ht.symm.trans ht'
    exact (hm.wellFormed ht).addReference rfl hcolumns constraint?
  exact hextended.updateTable fun target htarget =>
    (hextended.wellFormed htarget).updateKey (fun _ => rfl) fun _ => rfl

end Orderly

theorem orderly_extends : Extends Orderly where
  table hm hbuild h :=
    hm.addTable (TableDocument.build_ensures _ _ _ _ hbuild).toWellFormed _ h
  foreignKey hm source doc := by
    unfold applyForeignKey
    refine .after fun mapping => .bind hm.addReference ?_
    intro extended hextended
    exact .ok (hextended.updateTable fun t ht =>
      (hextended.wellFormed ht).updateReference (fun _ => rfl) fun _ => rfl)
  schema hm htables _ h := hm.addSchema htables _ h

/-- The visible tables of an introspected model are those that were read,
without the tables of the system schema. -/
theorem introspected_orderly {reader : Reader}
    {settings : Settings} {result : Introspection}
    (h : Introspection.run reader settings = .ok result) :
    result.model.Orderly := by
  obtain ⟨read, hends⟩ := Introspection.run_ends_of_ok h
  refine ⟨Introspection.run_ensures reader settings result h, ?_⟩
  intro path t ht
  rw [hends.table?_eq] at ht
  by_cases hsystem : path.schema = settings.naming.systemSchema
  · rw [if_pos hsystem] at ht
    cases ht
  · rw [if_neg hsystem] at ht
    exact hends.reading.closed.table ht

/-- Models that are built by introspections and documents.  The access lists of
the catalog itself are set beside them. -/
inductive Built : Model → Prop where
  | fresh (systemSchema : String) : Built (.fresh systemSchema)
  | introspected {reader : Reader} {settings : Settings}
      {result : Introspection}
      (h : Introspection.run reader settings = .ok result) : Built result.model
  | policy {m : Model} (hm : Built m) (acls : Acls)
      (annotations : Annotations) :
      Built { m with acls := acls, annotations := annotations }
  | table {m : Model} (hm : Built m) {schema : String} {doc : TableDocument}
      {settings : Settings} {result : Model × TablePath}
      (h : m.applyTable schema doc settings = .ok result) : Built result.1
  | schema {m m' : Model} (hm : Built m) {doc : SchemaDocument}
      {settings : Settings} (h : m.applySchema doc settings = .ok m') : Built m'

theorem Built.orderly {m : Model} (hm : m.Built) : m.Orderly := by
  induction hm with
  | fresh systemSchema =>
      exact {
        schema_name := fun h => by cases h
        table := fun h => by cases h
        system_table := fun h => by cases h
        system_apart := rfl
        wellFormed := fun h => by cases h }
  | introspected h => exact introspected_orderly h
  | policy hm acls annotations ih =>
      exact ih.of_visible rfl ih.schema_name ih.system_apart ih.wellFormed
  | table hm h ih => exact orderly_extends.applyTable ih _ _ _ _ h
  | schema hm h ih => exact orderly_extends.applySchema ih _ _ _ h

end GovernedCatalog.Model
