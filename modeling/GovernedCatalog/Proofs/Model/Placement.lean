import GovernedCatalog.Proofs.Fallible
import GovernedCatalog.Proofs.Model.View

/-!
# Tables put into a model

A table is put at a path in place of the one there, into a schema that is made if
it is missing.  What is done to that table afterwards might have been done
before, and tables at different paths may be put in either order.
-/

namespace GovernedCatalog.Model

/-- The model with a table at a path, in place of the one there. -/
def putTable (m : Model) (path : TablePath) (t : Table) : Model :=
  (m.ensureSchema path.schema).updateSchema path.schema fun s =>
    { s with tables := s.tables.insert path.table t }

variable {m : Model} {path path' : TablePath} {t t' : Table}

theorem schemas_putTable (name : String) :
    (m.putTable path t).schemas.get? name =
      if name = path.schema then
        let s := (m.schemas.get? name).getD (.fresh name)
        some { s with tables := s.tables.insert path.table t }
      else m.schemas.get? name := by
  unfold putTable updateSchema ensureSchema
  by_cases hname : name = path.schema <;> simp [hname]

theorem emptied_putTable (name : String) :
    ((m.putTable path t).schemas.get? name).map Schema.emptied =
      if name = path.schema then
        some (((m.schemas.get? name).map Schema.emptied).getD (.fresh name))
      else (m.schemas.get? name).map Schema.emptied := by
  rw [schemas_putTable]
  by_cases hname : name = path.schema
  · rw [if_pos hname, if_pos hname]
    cases m.schemas.get? name <;> rfl
  · rw [if_neg hname, if_neg hname]

theorem table?_putTable (path' : TablePath) :
    (m.putTable path t).table? path' =
      if path' = path then some t else m.table? path' := by
  unfold table?
  rw [schemas_putTable]
  cases path with
  | mk schema table =>
      cases path' with
      | mk schema' table' =>
          by_cases hschema : schema' = schema
          · subst hschema
            cases m.schemas.get? schema' <;>
              by_cases htable : table' = table <;> simp [htable, Schema.fresh]
          · simp [hschema]

theorem table?_putTable_self : (m.putTable path t).table? path = some t := by
  rw [table?_putTable, if_pos rfl]

theorem table?_putTable_of_ne (h : path' ≠ path) :
    (m.putTable path t).table? path' = m.table? path' := by
  rw [table?_putTable, if_neg h]

theorem putTable_comm (h : path ≠ path') :
    (m.putTable path t).putTable path' t' =
      (m.putTable path' t').putTable path t := by
  refine eq_of_tables (fun name => ?_) (fun other => ?_) rfl rfl rfl
  · simp only [emptied_putTable]
    by_cases hname : name = path.schema
    · by_cases hname' : name = path'.schema <;> simp [← hname, hname']
    · by_cases hname' : name = path'.schema
      · simp [← hname', hname]
      · simp [hname, hname']
  · simp only [table?_putTable]
    by_cases hother : other = path
    · have hne : other ≠ path' := hother ▸ h
      simp [hother, h]
    · simp [hother]

theorem updateTable_putTable (f : Table → Table) :
    (m.putTable path t).updateTable path f = m.putTable path (f t) := by
  refine eq_of_tables (fun name => ?_) (fun other => ?_) rfl rfl rfl
  · rw [emptied_updateTable, emptied_putTable, emptied_putTable]
  · simp only [table?_updateTable, table?_putTable]
    by_cases hother : other = path <;> simp [hother]

theorem addColumn_putTable (c : Column) :
    (m.putTable path t).addColumn path c =
      (t.addColumn c).map (m.putTable path) := by
  unfold addColumn
  rw [table_eq_ok_iff.2 table?_putTable_self]
  cases hadd : t.addColumn c with
  | ok added =>
      have hput : (m.putTable path t).updateTable path (fun _ => added) =
          m.putTable path added := updateTable_putTable _
      simp [bind, Except.bind, hadd, Except.map, pure, Except.pure, hput]
  | error e => simp [bind, Except.bind, hadd, Except.map]

theorem foldlM_addColumn_putTable {α : Type u} (column : α → Column)
    (l : List α) :
    l.foldlM (fun m a => m.addColumn path (column a)) (m.putTable path t) =
      (l.foldlM (fun t a => Table.addColumn t (column a)) t).map
        (m.putTable path) := by
  induction l generalizing t with
  | nil => rfl
  | cons a rest ih =>
      simp only [List.foldlM_cons, addColumn_putTable]
      cases t.addColumn (column a) with
      | ok added => exact ih
      | error e => rfl

end GovernedCatalog.Model
