import GovernedCatalog.Catalog
import GovernedCatalog.ColumnType.Basic
import GovernedCatalog.ColumnType.Canonical
import GovernedCatalog.ColumnType.Default
import GovernedCatalog.ColumnType.Document
import GovernedCatalog.ColumnType.Literal
import GovernedCatalog.CommandLine
import GovernedCatalog.Decimal.Reading
import GovernedCatalog.Decimal.Shortest
import GovernedCatalog.Digest.Sha256
import GovernedCatalog.Dump.Document
import GovernedCatalog.Dump.Reader
import GovernedCatalog.Entity.Path
import GovernedCatalog.Entity.Reference
import GovernedCatalog.Error
import GovernedCatalog.Guard.Binding
import GovernedCatalog.Guard.Column
import GovernedCatalog.Guard.Condition
import GovernedCatalog.Guard.Path
import GovernedCatalog.Guard.Relation
import GovernedCatalog.Introspection.Overlay
import GovernedCatalog.Introspection.Report
import GovernedCatalog.Introspection.Structure
import GovernedCatalog.Json.Basic
import GovernedCatalog.Json.Decode
import GovernedCatalog.Json.Number
import GovernedCatalog.Json.Printer
import GovernedCatalog.Json.Reader
import GovernedCatalog.Main
import GovernedCatalog.Model.Apply
import GovernedCatalog.Model.Basic
import GovernedCatalog.Model.Column
import GovernedCatalog.Model.Definition
import GovernedCatalog.Model.Document
import GovernedCatalog.Model.Drop
import GovernedCatalog.Model.Edit
import GovernedCatalog.Model.Entity
import GovernedCatalog.Model.Key
import GovernedCatalog.Model.Listing
import GovernedCatalog.Model.Reach
import GovernedCatalog.Model.Table
import GovernedCatalog.Ordered.Map
import GovernedCatalog.Ordered.Set
import GovernedCatalog.Overlay.Annotations
import GovernedCatalog.Overlay.Storage
import GovernedCatalog.Pattern.Basic
import GovernedCatalog.Pattern.Bracket
import GovernedCatalog.Pattern.Class
import GovernedCatalog.Pattern.Reader
import GovernedCatalog.Policy.AccessList
import GovernedCatalog.Policy.Binding
import GovernedCatalog.Policy.Document
import GovernedCatalog.Policy.Right
import GovernedCatalog.Proofs.Agreement
import GovernedCatalog.Proofs.Catalog.Hidden
import GovernedCatalog.Proofs.Catalog.Query
import GovernedCatalog.Proofs.Catalog.Refresh
import GovernedCatalog.Proofs.Catalog.Visits
import GovernedCatalog.Proofs.ColumnType.Canonical
import GovernedCatalog.Proofs.ColumnType.Constant
import GovernedCatalog.Proofs.ColumnType.Default
import GovernedCatalog.Proofs.ColumnType.Document
import GovernedCatalog.Proofs.ColumnType.Literal
import GovernedCatalog.Proofs.ColumnType.Recovery
import GovernedCatalog.Proofs.ColumnType.Rewriting
import GovernedCatalog.Proofs.ColumnType.Spelling
import GovernedCatalog.Proofs.Decimal.Packing
import GovernedCatalog.Proofs.Decimal.Reading
import GovernedCatalog.Proofs.Decimal.Rounding
import GovernedCatalog.Proofs.Decimal.Shortest
import GovernedCatalog.Proofs.Document.Acceptance
import GovernedCatalog.Proofs.Document.Correspondence
import GovernedCatalog.Proofs.Document.Description
import GovernedCatalog.Proofs.Document.Names
import GovernedCatalog.Proofs.Document.Provenance
import GovernedCatalog.Proofs.Document.Reading
import GovernedCatalog.Proofs.Document.Rebuilding
import GovernedCatalog.Proofs.Document.Relinking
import GovernedCatalog.Proofs.Document.Rendering
import GovernedCatalog.Proofs.Entity.Mapping
import GovernedCatalog.Proofs.Fallible
import GovernedCatalog.Proofs.Guard.Column
import GovernedCatalog.Proofs.Guard.ConditionText
import GovernedCatalog.Proofs.Guard.Contract
import GovernedCatalog.Proofs.Guard.Fragment
import GovernedCatalog.Proofs.Guard.Inheritance
import GovernedCatalog.Proofs.Guard.Naming
import GovernedCatalog.Proofs.Guard.Predicate
import GovernedCatalog.Proofs.Guard.Relation
import GovernedCatalog.Proofs.Guard.Scope
import GovernedCatalog.Proofs.Guard.Source
import GovernedCatalog.Proofs.Guard.Steps
import GovernedCatalog.Proofs.Guard.Structure
import GovernedCatalog.Proofs.Introspection.Addressable
import GovernedCatalog.Proofs.Introspection.Boundary
import GovernedCatalog.Proofs.Introspection.Columns
import GovernedCatalog.Proofs.Introspection.Deduplication
import GovernedCatalog.Proofs.Introspection.Grouping
import GovernedCatalog.Proofs.Introspection.Origin
import GovernedCatalog.Proofs.Introspection.Overlaid
import GovernedCatalog.Proofs.Introspection.Policy
import GovernedCatalog.Proofs.Introspection.Purging
import GovernedCatalog.Proofs.Introspection.Reading
import GovernedCatalog.Proofs.Introspection.RowOrder
import GovernedCatalog.Proofs.Introspection.Split
import GovernedCatalog.Proofs.Introspection.StoredRow
import GovernedCatalog.Proofs.Json.Canonical
import GovernedCatalog.Proofs.Json.Reading
import GovernedCatalog.Proofs.Json.Record
import GovernedCatalog.Proofs.Model.Addition
import GovernedCatalog.Proofs.Model.Closed
import GovernedCatalog.Proofs.Model.Document
import GovernedCatalog.Proofs.Model.Drop
import GovernedCatalog.Proofs.Model.Erasure
import GovernedCatalog.Proofs.Model.History
import GovernedCatalog.Proofs.Model.Listing
import GovernedCatalog.Proofs.Model.Overlay
import GovernedCatalog.Proofs.Model.Parts
import GovernedCatalog.Proofs.Model.Placement
import GovernedCatalog.Proofs.Model.Position
import GovernedCatalog.Proofs.Model.Remainder
import GovernedCatalog.Proofs.Model.Removal
import GovernedCatalog.Proofs.Model.Undoing
import GovernedCatalog.Proofs.Model.Unlinking
import GovernedCatalog.Proofs.Model.View
import GovernedCatalog.Proofs.Ordered.Map
import GovernedCatalog.Proofs.Ordered.Set
import GovernedCatalog.Proofs.Overlay.Carried
import GovernedCatalog.Proofs.Overlay.Policy
import GovernedCatalog.Proofs.Overlay.View
import GovernedCatalog.Proofs.Policy.Document
import GovernedCatalog.Proofs.Policy.Validity
import GovernedCatalog.Proofs.Rights.Addressable
import GovernedCatalog.Proofs.Rights.Afresh
import GovernedCatalog.Proofs.Rights.Containment
import GovernedCatalog.Proofs.Rights.Denial
import GovernedCatalog.Proofs.Rights.Inheritance
import GovernedCatalog.Proofs.Rights.Interleaving
import GovernedCatalog.Proofs.Rights.Memory
import GovernedCatalog.Proofs.Rights.Recollection
import GovernedCatalog.Proofs.Rights.Redaction
import GovernedCatalog.Proofs.Rights.Remainder
import GovernedCatalog.Proofs.Rights.Render
import GovernedCatalog.Proofs.Rights.Search
import GovernedCatalog.Proofs.Rights.Strength
import GovernedCatalog.Proofs.Rights.Visible
import GovernedCatalog.Proofs.Session.Policy
import GovernedCatalog.Proofs.Sql.Construct
import GovernedCatalog.Proofs.Sql.DerivedName
import GovernedCatalog.Proofs.Sql.Expression
import GovernedCatalog.Proofs.Sql.Follower
import GovernedCatalog.Proofs.Sql.Number
import GovernedCatalog.Proofs.Sql.Operand
import GovernedCatalog.Proofs.Sql.Operator
import GovernedCatalog.Proofs.Sql.Phrase
import GovernedCatalog.Proofs.Sql.PlainOperand
import GovernedCatalog.Proofs.Sql.Query
import GovernedCatalog.Proofs.Sql.Recogniser
import GovernedCatalog.Proofs.Sql.Selection
import GovernedCatalog.Proofs.Sql.SelfDelimiting
import GovernedCatalog.Proofs.Sql.Spelling
import GovernedCatalog.Proofs.Sql.Token
import GovernedCatalog.Proofs.Sql.TypeFollower
import GovernedCatalog.Proofs.Sql.TypeName
import GovernedCatalog.Proofs.Stateful
import GovernedCatalog.Proofs.Text.Pieces
import GovernedCatalog.Rights.Context
import GovernedCatalog.Rights.Inheritance
import GovernedCatalog.Rights.Matrix
import GovernedCatalog.Rights.Render
import GovernedCatalog.Rights.Rule
import GovernedCatalog.Rights.Summary
import GovernedCatalog.Session.Basic
import GovernedCatalog.Session.Edit
import GovernedCatalog.Session.Target
import GovernedCatalog.Settings.Basic
import GovernedCatalog.Settings.Document
import GovernedCatalog.Sql.Expression
import GovernedCatalog.Sql.Function
import GovernedCatalog.Sql.Inside
import GovernedCatalog.Sql.Keyword
import GovernedCatalog.Sql.Name
import GovernedCatalog.Sql.Operand
import GovernedCatalog.Sql.Operator
import GovernedCatalog.Sql.Query
import GovernedCatalog.Sql.Recogniser
import GovernedCatalog.Sql.Table
import GovernedCatalog.Sql.Token
import GovernedCatalog.Sql.TypeName
import GovernedCatalog.Text.Character
import GovernedCatalog.Text.Hexadecimal
import GovernedCatalog.Text.Quoted
import GovernedCatalog.Text.Search
import GovernedCatalog.Text.Shown
import GovernedCatalog.Toml.Document
import GovernedCatalog.Toml.Nesting
import GovernedCatalog.Toml.Text
import GovernedCatalog.Toml.Value
