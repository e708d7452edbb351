import GovernedCatalog.Introspection.Report
import GovernedCatalog.Proofs.Introspection.Reading
import GovernedCatalog.Proofs.Introspection.StoredRow
import GovernedCatalog.Proofs.Rights.Addressable

/-!
# Introspected models are addressable

Overlays are attached to a closed model, and its schema for the catalog itself is
then put apart from the visible ones.
-/

namespace GovernedCatalog

namespace Introspection

open Dump

/-! ## Overlays -/

section Overlays

variable {P : Model → Prop}

theorem attach_ensures {α : Type} {attach? : Model → α → Option Model}
    (hattach : ∀ {m m' : Model} {row : α}, P m → attach? m row = some m' → P m')
    (count : Skipped → Skipped) {p : Progress} (hp : P p.model)
    (rows : List α) : P (rows.foldl (attach attach? count) p).model := by
  induction rows generalizing p with
  | nil => exact hp
  | cons row rest ih =>
      refine ih ?_
      unfold attach
      cases hrow : attach? p.model row with
      | none => exact hp
      | some m => exact hattach hp hrow

/-- What each stored row that is attached keeps. -/
structure Attachable (P : Model → Prop) : Prop where
  annotate : ∀ {m m'} kind row, P m → annotate? m kind row = some m' → P m'
  restrict : ∀ {m m'} kind row, P m → restrict? m kind row = some m' → P m'
  bind : ∀ {m m'} kind row, P m → bind? m kind row = some m' → P m'

namespace Attachable

variable (hP : Attachable P) (reader : Reader) (settings : Settings)

include hP

theorem attachKind {p : Progress} (hp : P p.model) (kind : StorageKind) :
    Ensures (attachKind reader settings p kind) fun p' => P p'.model := by
  unfold Introspection.attachKind
  refine .after fun annotations => ?_
  extract_lets annotated restrict
  have hannotated : P annotated.model :=
    attach_ensures (hP.annotate kind _) _ hp annotations
  have hrestrict : ∀ acls, Ensures (restrict acls) fun p' => P p'.model := by
    intro acls
    have hacls : P (acls.foldl (attachAcl kind) annotated).model :=
      attach_ensures (hP.restrict kind _) _ hannotated acls
    have hbindings : ∀ bindings : List BindingRow, P
        (bindings.foldl (attachBinding kind)
          (acls.foldl (attachAcl kind) annotated)).model :=
      attach_ensures (hP.bind kind _) _ hacls
    exact .ite (.after fun bindings => .ok (hbindings bindings))
      (.ok (hbindings []))
  exact .ite (.ite (.after hrestrict) (hrestrict [])) (.ok hannotated)

theorem attachAll {m : Model} (hm : P m) :
    Ensures (attachAll reader settings m) fun p => P p.model :=
  .foldlM (P := fun p : Progress => P p.model)
    (fun _ kind _ hp => hP.attachKind reader settings hp kind) hm

end Attachable

/-- What annotations, access lists and bindings leave as it is. -/
structure Kept (P : Model → Prop) : Prop where
  setAnnotations : ∀ {m} a annotations, P m → P (m.setAnnotations a annotations)
  setAcls : ∀ {m} a acls, P m → P (m.setAcls a acls)
  setBindings : ∀ {m} a bindings, P m → P (m.setBindings a bindings)

theorem Kept.attachable (hP : Kept P) : Attachable P where
  annotate kind row hm h := by
    obtain ⟨a, _, annotations, _, _, rfl⟩ := annotate?_eq_some h
    exact hP.setAnnotations a _ hm
  restrict kind row hm h := by
    obtain ⟨_, a, _, _, _, acls, _, _, _, _, rfl⟩ := restrict?_eq_some h
    exact hP.setAcls a acls hm
  bind kind row hm h := by
    obtain ⟨a, _, _, _, bindings, _, _, _, rfl⟩ := bind?_eq_some h
    exact hP.setBindings a bindings hm

end Overlays

theorem reading_kept (settings : Settings) : Kept (Reading settings) where
  setAnnotations a annotations hm :=
    ⟨hm.closed.setAnnotations a annotations, by cases a <;> exact hm.system⟩
  setAcls a acls hm :=
    ⟨hm.closed.setAcls a acls, by cases a <;> exact hm.system⟩
  setBindings a bindings hm :=
    ⟨hm.closed.setBindings a bindings, by cases a <;> exact hm.system⟩

theorem attachAll_ensures (reader : Reader) (settings : Settings) {m : Model}
    (hm : Reading settings m) :
    Ensures (attachAll reader settings m) fun p => Reading settings p.model :=
  (reading_kept settings).attachable.attachAll reader settings hm

/-! ## The system schema -/

/-- The system schema of a closed model is taken out of the visible ones with
its tables. -/
theorem Reading.installSystemSchema {settings : Settings} {m : Model}
    (hm : Reading settings m) :
    (m.installSystemSchema settings.naming.systemSchema).2.Addressable := by
  have hget : ∀ name,
      (m.schemas.erase settings.naming.systemSchema).get? name =
        if name = settings.naming.systemSchema then none
        else m.schemas.get? name :=
    fun name => SortedMap.get?_erase ..
  have hschema : ∀ {name : String} {s : Schema},
      (m.schemas.erase settings.naming.systemSchema).get? name = some s →
        m.schemas.get? name = some s := by
    intro name s hs
    rw [hget] at hs
    by_cases hname : name = settings.naming.systemSchema
    · rw [if_pos hname] at hs
      cases hs
    · rw [if_neg hname] at hs
      exact hs
  have htable : ∀ {system : Schema} {path : TablePath} {t : Table},
      Model.table?
          { m with
            schemas := m.schemas.erase settings.naming.systemSchema
            systemSchema := system } path = some t → t.Named path := by
    intro system path t ht
    obtain ⟨s, hs, hget⟩ := Model.table?_eq_some_iff.1 ht
    exact (hm.closed.table
      (Model.table?_eq_some_iff.2 ⟨s, hschema hs, hget⟩)).toNamed
  unfold Model.installSystemSchema Model.takeSchema
  cases hfound : m.schemas.get? settings.naming.systemSchema with
  | none =>
      exact
        { schema_name := fun hs => hm.closed.schema_name (hschema hs)
          table := htable
          system_table := by
            intro name t ht
            simp [hm.system, Schema.fresh] at ht
          system_apart := by simp [hm.system, Schema.fresh] }
  | some s =>
      have hname := hm.closed.schema_name hfound
      exact
        { schema_name := fun hs => hm.closed.schema_name (hschema hs)
          table := htable
          system_table := by
            intro name t ht
            have hpath : m.table? ⟨s.name, name⟩ = some t :=
              Model.table?_eq_some_iff.2 ⟨s, hname ▸ hfound, ht⟩
            exact (hm.closed.table hpath).toNamed
          system_apart := by simp [hname] }

theorem valueMap_named (systemSchema : String) :
    (ValueMap.table systemSchema).Named ⟨systemSchema, ValueMap.tableName⟩ where
  path_eq := rfl
  column_table := by
    simp [ValueMap.table, ValueMap.columnNames, Column.stored, Table.fresh,
      Table.path]
  column_names := by
    simp [ValueMap.table, ValueMap.columnNames, Column.stored]
  key h := by cases h
  foreignKey h := by cases h

/-- A value map among the tables of the system schema. -/
theorem addValueMap_ensures {m : Model} (hm : m.Addressable) :
    Ensures (addValueMap m) Model.Addressable := by
  intro m' h
  obtain ⟨s, hs, rfl⟩ := map_eq_ok.1 h
  unfold Schema.addTable at hs
  split at hs
  · cases hs
  · cases hs
    exact
      { schema_name := hm.schema_name
        table := hm.table
        system_table := by
          intro name t ht
          simp only [SortedMap.get?_insert] at ht
          by_cases hname : name = (ValueMap.table m.systemSchema.name).name
          · rw [if_pos hname, Option.some.injEq] at ht
            rw [← ht, hname]
            exact valueMap_named _
          · rw [if_neg hname] at ht
            exact hm.system_table ht
        system_apart := hm.system_apart }

/-- The model of an introspection is addressable. -/
theorem run_ensures (reader : Reader) (settings : Settings) :
    Ensures (run reader settings) fun result => result.model.Addressable := by
  unfold run
  refine .bind (readStructure_ensures reader settings) fun base hbase => ?_
  obtain ⟨base, dropped⟩ := base
  refine .bind (attachAll_ensures reader settings hbase) fun p hp => ?_
  extract_lets m statements
  have hm : m.Addressable := hp.installSystemSchema
  refine .ite (.ok hm) (.after fun _ => ?_)
  exact .bind (addValueMap_ensures hm) fun m' hm' => .ok hm'

end Introspection

end GovernedCatalog
