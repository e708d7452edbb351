import GovernedCatalog.Model.Apply
import GovernedCatalog.Session.Basic

/-!
# Edits of a session

Documents replace the session's model; all other edits change it in place.
Annotations, access lists and bindings are edited at the address of their
entity.
-/

namespace GovernedCatalog.Session

def applySchema (doc : SchemaDocument) : Run Unit := do
  let s ← get
  replaceBy (← attempt (s.model.applySchema doc s.settings))

def applyTable (schema : String) (doc : TableDocument) : Run TablePath := do
  let s ← get
  let (m, path) ← attempt (s.model.applyTable schema doc s.settings)
  replaceBy m
  return path

/-- The number of tables in a schema, which is added if it is not there. -/
def ensureSchema (name : String) : Run Nat := do
  change fun m => .ok (m.ensureSchema name)
  return (← attempt ((← currentModel).schema name)).tables.size

/-- Takes a schema away, and says whether it was there. -/
def takeSchema (name : String) : Run Bool := do
  let (s?, m) := (← currentModel).takeSchema name
  editTo m
  return s?.isSome

def installSystemSchema (name : String) : Run Bool := do
  let (found, m) := (← currentModel).installSystemSchema name
  editTo m
  return found

def addTable (schema name : String) (kind : TableKind) : Run Unit :=
  change fun m =>
    m.reaching schema fun m => m.addTable schema (.fresh schema name kind)

/-- Adds a column to the table at an address, and returns the position after
the last column. -/
def addColumn (a : Address) (t : Table) (c : Column) : Run Nat := do
  let extended ← attempt (t.addColumn c)
  changeAt a fun m => m.updateTable t.path fun _ => extended
  return extended.nextPosition

/-- Adds a key, and returns its constraints. -/
def addKey (path : TablePath) (columns : ColumnSet)
    (constraint? : Option ConstraintName) : Run (SortedSet ConstraintName) := do
  change fun m => m.addKey path columns constraint?
  let t ← attempt ((← currentModel).table path)
  return (← attempt (t.key columns)).constraints

def acls (a : Address) : Run (AclKind × Acls) := do
  let e ← reach a
  suitable ((← currentModel).aclsOf? e)

def setAcl (a : Address) (right : Right) (members : List String) :
    Run Acls := do
  let (kind, acls) ← acls a
  let acls ← attempt (acls.set kind right members)
  changeAt a fun m => m.setAcls a acls
  return acls

/-- Removes an access list, and returns it. -/
def removeAcl (a : Address) (right : Right) : Run (Option (List String)) := do
  let (_, acls) ← acls a
  changeAt a fun m => m.setAcls a (acls.erase right)
  return acls.get? right

def clearAcls (a : Address) : Run Unit := do
  discard (acls a)
  changeAt a fun m => m.setAcls a {}

def bindings (a : Address) : Run (AclKind × Bindings) := do
  suitable (Model.bindingsOf? (← reach a))

def setBinding (a : Address) (name : String) (binding : AclBinding) :
    Run Bindings := do
  let (kind, bindings) ← bindings a
  let bindings ← attempt (bindings.set kind name binding)
  changeAt a fun m => m.setBindings a bindings
  return bindings

/-- Removes a binding, and returns it. -/
def removeBinding (a : Address) (name : String) : Run (Option AclBinding) := do
  let (_, bindings) ← bindings a
  changeAt a fun m => m.setBindings a (bindings.erase name)
  return bindings.get? name

def clearBindings (a : Address) : Run Unit := do
  discard (bindings a)
  changeAt a fun m => m.setBindings a {}

def annotations (a : Address) : Run Annotations := do
  let e ← reach a
  suitable ((← currentModel).annotationsOf? e)

/-- Sets an annotation, and returns the value it had. -/
def setAnnotation (a : Address) (uri : String) (value : Json) :
    Run (Option Json) := do
  let annotations ← annotations a
  changeAt a fun m => m.setAnnotations a (annotations.insert uri value)
  return annotations.get? uri

/-- Removes an annotation, and returns its value. -/
def removeAnnotation (a : Address) (uri : String) : Run Json := do
  let annotations ← annotations a
  let (value, rest) ← attempt (annotations.remove uri)
  changeAt a fun m => m.setAnnotations a rest
  return value

def clearAnnotations (a : Address) : Run Unit := do
  discard (annotations a)
  changeAt a fun m => m.setAnnotations a {}

/-- Gives each column of the table at an address a comment. -/
def commentColumns (a : Address) (t : Table) (comment : Column → String) :
    Run (List String) := do
  changeAt a fun m => m.updateTable t.path fun t =>
    { t with
      columns := t.columns.map fun c => { c with comment := some (comment c) } }
  return t.columns.map comment

/-- Gives each reference of the table at an address a comment. -/
def commentReferences (a : Address) (t : Table)
    (comment : Reference → String) : Run (List String) := do
  changeAt a fun m => m.updateTable t.path fun t =>
    { t with
      foreignKeys := t.foreignKeys.mapValues fun _ fk =>
        { fk with
          references := fk.references.mapValues fun _ r =>
            { r with comment := some (comment r) } } }
  return t.references.map comment

/-- Gives each visible schema a comment. -/
def commentSchemas (comment : Schema → String) : Run (List String) := do
  let m ← currentModel
  editTo { m with
    schemas := m.schemas.mapValues fun _ s =>
      { s with comment := some (comment s) } }
  return m.schemas.values.map comment

/-- Bares the entity at an address of annotations and policy, and returns the
statements that delete its stored rows. -/
def bare (a : Address) : Run (List String) := do
  let e ← reach a
  let m ← currentModel
  changeAt a fun m => m.bareAt a
  return Model.purgeOf m.systemSchema.name e

end GovernedCatalog.Session
