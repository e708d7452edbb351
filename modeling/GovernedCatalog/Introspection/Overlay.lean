import GovernedCatalog.Dump.Reader
import GovernedCatalog.Model.Entity
import GovernedCatalog.Settings.Basic

/-!
# Stored overlays

Annotations, access lists and bindings are read from the system schema, kind by
kind, and attached to the entities they name.  Rows that name no entity, and
policies that their entity cannot carry, are left out and counted.
-/

namespace GovernedCatalog

namespace Dump.Target

def tablePath? (t : Target) : Option TablePath := do
  return ⟨← t.schema, ← t.table⟩

/-- The reference that the target's source and target columns describe. -/
def referenceId? (t : Target) : Option ReferenceId := do
  let source : TablePath := ⟨← t.sourceSchema, ← t.sourceTable⟩
  let target : TablePath := ⟨← t.targetSchema, ← t.targetTable⟩
  let sources ← t.sourceColumns
  let targets ← t.targetColumns
  if sources.length ≠ targets.length then none
  match ReferenceMap.ofPairs target (sources.zip targets) with
  | .ok mapping => return ⟨source, mapping⟩
  | .error _ => none

/-- The address of the entity of a kind that the target names. -/
def address? (t : Target) : StorageKind → Option Address
  | .catalog => some .catalog
  | .schema => t.schema.map Address.schema
  | .table => t.tablePath?.map Address.table
  | .column => do return .column (← t.tablePath?) (← t.column)
  | .key => do return .key (← t.tablePath?) (.ofList (← t.columns))
  | .keyReference => t.referenceId?.map Address.reference

end Dump.Target

namespace Introspection

open Dump

/-- How many stored rows were left out. -/
structure Skipped where
  annotations : Nat
  acls : Nat
  bindings : Nat
  deriving DecidableEq, Repr

/-- A model and what was left out of it so far. -/
structure Progress where
  model : Model
  skipped : Skipped

/-- The entity of a kind that a target names, with its address. -/
def resolve? (m : Model) (kind : StorageKind) (target : Target) :
    Option (Address × Entity) := do
  let a ← target.address? kind
  match m.entity a with
  | .ok e => return (a, e)
  | .error _ => none

def annotate? (m : Model) (kind : StorageKind) (row : AnnotationRow) :
    Option Model := do
  let (a, e) ← resolve? m kind row.target
  let annotations ← m.annotationsOf? e
  return m.setAnnotations a (annotations.insert row.uri row.value)

def restrict? (m : Model) (kind : StorageKind) (row : AclRow) :
    Option Model := do
  let right ← Right.ofName? row.right
  let (a, e) ← resolve? m kind row.target
  let (aclKind, acls) ← m.aclsOf? e
  match acls.set aclKind right row.members with
  | .ok acls => return m.setAcls a acls
  | .error _ => none

def bind? (m : Model) (kind : StorageKind) (row : BindingRow) :
    Option Model := do
  let (a, e) ← resolve? m kind row.target
  let (aclKind, bindings) ← Model.bindingsOf? e
  match bindings.set aclKind row.name row.binding with
  | .ok bindings => return m.setBindings a bindings
  | .error _ => none

/-- Attaches the row if it can be attached, and counts it otherwise. -/
def attach (attach? : Model → α → Option Model) (count : Skipped → Skipped)
    (p : Progress) (row : α) : Progress :=
  match attach? p.model row with
  | some m => { p with model := m }
  | none => { p with skipped := count p.skipped }

def annotate (kind : StorageKind) : Progress → AnnotationRow → Progress :=
  attach (annotate? · kind ·) fun s => { s with annotations := s.annotations + 1 }

def attachAcl (kind : StorageKind) : Progress → AclRow → Progress :=
  attach (restrict? · kind ·) fun s => { s with acls := s.acls + 1 }

def attachBinding (kind : StorageKind) : Progress → BindingRow → Progress :=
  attach (bind? · kind ·) fun s => { s with bindings := s.bindings + 1 }

/-- The rows of a table of the system schema, if it has the table. -/
def storedRows (reader : Reader) (systemSchema table : String)
    (rows : Except Error (List α)) : Except Error (List α) := do
  if ← reader.tableExists ⟨systemSchema, table⟩ then rows else return []

/-- Attaches what is stored for one kind of entity. -/
def attachKind (reader : Reader) (settings : Settings) (p : Progress)
    (kind : StorageKind) : Except Error Progress := do
  let stored {α : Type} (table : String) (rows : Except Error (List α)) :=
    storedRows reader settings.naming.systemSchema table rows
  let annotations ← stored kind.annotationTable (reader.annotations kind)
  let p := annotations.foldl (annotate kind) p
  unless settings.introspection.loadPolicy do return p
  let acls ←
    if kind.hasAcls then stored kind.aclTable (reader.acls kind) else pure []
  let p := acls.foldl (attachAcl kind) p
  let bindings ←
    if kind.hasBindings then stored kind.bindingTable (reader.bindings kind)
    else pure []
  return bindings.foldl (attachBinding kind) p

def attachAll (reader : Reader) (settings : Settings) (m : Model) :
    Except Error Progress :=
  StorageKind.all.foldlM (attachKind reader settings) ⟨m, ⟨0, 0, 0⟩⟩

end Introspection

end GovernedCatalog
