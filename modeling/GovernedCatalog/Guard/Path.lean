import GovernedCatalog.Guard.Condition
import GovernedCatalog.Rights.Inheritance

/-!
# Walking projection paths

A walk stands at a row of some table.  A step along a reference joins the table
at its other end and moves there; a filter adds a condition on the current row.
-/

namespace GovernedCatalog.Guard

structure Walk where
  /-- The table of the current row. -/
  table : Table
  row : RowName
  joined : List TablePath
  conditions : List Condition

namespace Walk

def start (t : Table) : Walk := ⟨t, .governed, [], []⟩

/-- A column of the current table. -/
def column (w : Walk) (name : String) : Except Error Column :=
  match w.table.column? name with
  | some c => .ok c
  | none => .error (.noPathColumn name w.table.path)

/-- The reference out of, or into, the current table with a constraint. -/
def reference (w : Walk) (m : Model) (direction : Direction)
    (constraint : ConstraintName) : Except Error Reference := do
  let found ←
    match direction with
    | .outbound => pure (w.table.referenceNamed? constraint)
    | .inbound =>
        match m.inboundReferences w.table.path with
        | .ok references =>
            pure (references.find? fun r => r.constraints.contains constraint)
        | .error cause => throw (.brokenInbound cause)
  match found with
  | some r => return r
  | none => throw (.noPathReference direction constraint w.table.path)

/-- Joins the table at the other end of a reference and moves there. -/
def follow (w : Walk) (m : Model) (direction : Direction) (r : Reference) :
    Except Error Walk :=
  let path :=
    match direction with
    | .outbound => r.mapping.target
    | .inbound => r.source
  match m.tableOf? path with
  | none => .error (.noPathTable path)
  | some next =>
      let row := RowName.joined (w.joined.length + 1)
      let joins := r.mapping.pairs.entries.map fun (source, target) =>
        match direction with
        | .outbound => Condition.join ⟨w.row, source⟩ ⟨row, target⟩
        | .inbound => Condition.join ⟨w.row, target⟩ ⟨row, source⟩
      .ok ⟨next, row, w.joined ++ [next.path], w.conditions ++ joins⟩

/-- The condition that a filter puts on a field. -/
def filterCondition (field : Field) (type : ColumnType) (operand : Json)
    (operator : String) : Except Error Condition :=
  let pattern (caseSensitive : Bool) :=
    match operand with
    | .str p => .ok (Condition.fits field caseSensitive p)
    | _ => .error Error.patternNotText
  match operator with
  | "::null::" => .ok (.isNull field)
  | "::regexp::" => pattern true
  | "::ciregexp::" => pattern false
  | _ =>
      match Comparison.ofOperator? operator with
      | some comparison =>
          (type.literal operand).map (Condition.compare field comparison)
      | none => .error (.unsupportedOperator operator)

def step (w : Walk) (m : Model) : PathElement → Except Error Walk
  | .follow direction constraint => do
      let r ← w.reference m direction constraint
      w.follow m direction r
  | .filter name operand operator => do
      let column ← w.column name
      let condition ← filterCondition ⟨w.row, column.name⟩ column.type operand
        (operator.getD "=")
      return { w with conditions := w.conditions ++ [condition] }
  | .column name => .error (.columnInsidePath name)

/-- The condition of the walk with one more condition at its end. -/
def finish (w : Walk) (condition : Condition) : PathCondition :=
  ⟨w.joined, w.conditions ++ [condition]⟩

end Walk

/-- What a projected column must be. -/
def projectedCondition (type : ProjectionType) (field : Field) (column : Column)
    (roles : Roles) : Condition :=
  match type with
  | .nonnull => .isNotNull field
  | .acl =>
      if column.type.isArray then .hasRole field roles
      else .isRole field roles

/-- The condition of a projection from the rows of a table. -/
def pathCondition (m : Model) (roles : Roles) (t : Table)
    (projection : Projection) (type : ProjectionType) :
    Except Error PathCondition := do
  let (steps, name) ← projection.split
  let w ← steps.foldlM (fun w element => w.step m element) (Walk.start t)
  let column ← w.column name
  return w.finish (projectedCondition type ⟨w.row, column.name⟩ column roles)

end GovernedCatalog.Guard
