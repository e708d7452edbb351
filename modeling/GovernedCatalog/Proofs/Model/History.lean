import GovernedCatalog.Proofs.Model.Document
import GovernedCatalog.Proofs.Model.Drop

/-!
# Histories of a model

A history is a list of changes that are made one after the other, whether they
succeed or are refused.  Every history that starts from the fresh model keeps it
closed, so that along a history no drop stops halfway.
-/

namespace GovernedCatalog

/-- A change of the visible schemas of a model. -/
inductive Change where
  | addSchema (s : Schema)
  | ensureSchema (name : String)
  | addTable (schema : String) (t : Table)
  | addColumn (path : TablePath) (c : Column)
  | addKey (path : TablePath) (columns : ColumnSet)
      (constraint? : Option ConstraintName)
  | addReference (source : TablePath) (mapping : ReferenceMap)
      (constraint? : Option ConstraintName)
      (onDelete onUpdate : ReferentialAction)
  | drop (p : Part)
  | applyTable (schema : String) (doc : TableDocument) (settings : Settings)
  | applySchema (doc : SchemaDocument) (settings : Settings)

namespace Change

/-- Entities that are added as a whole are built for their place: a schema is
closed by itself, a table is empty and in its own schema, and a column is of its
own table. -/
def WellBuilt : Change → Prop
  | addSchema s => (Model.alone s).Closed
  | addTable schema t =>
      t.schema = schema ∧ t.columns = [] ∧ t.keys = ∅ ∧ t.foreignKeys = ∅
  | addColumn path c => c.table = path
  | _ => True

/-- The model after an addition, which is the one before if it is refused. -/
def accepted (m : Model) : Except Error Model → Model
  | .ok m' => m'
  | .error _ => m

/-- The model after the change. -/
def apply (m : Model) : Change → Model
  | addSchema s => accepted m (m.addSchema s)
  | ensureSchema name => m.ensureSchema name
  | addTable schema t => accepted m (m.addTable schema t)
  | addColumn path c => accepted m (m.addColumn path c)
  | addKey path columns constraint? =>
      accepted m (m.addKey path columns constraint?)
  | addReference source mapping constraint? onDelete onUpdate =>
      accepted m (m.addReference source mapping constraint? onDelete onUpdate)
  | drop p => (p.drop.run.run m).2
  | applyTable schema doc settings =>
      accepted m ((m.applyTable schema doc settings).map Prod.fst)
  | applySchema doc settings => accepted m (m.applySchema doc settings)

/-- What an addition ensures holds if it did before, also if it is refused. -/
theorem accepted_ensures {P : Model → Prop} {m : Model} (hm : P m)
    {x : Except Error Model} (hx : Ensures x P) : P (accepted m x) := by
  cases x with
  | ok m' => exact hx m' rfl
  | error e => exact hm

/-- Every change keeps a model closed. -/
theorem apply_closed {m : Model} (hm : m.Closed) {c : Change}
    (hc : c.WellBuilt) : (apply m c).Closed := by
  cases c with
  | addSchema s => exact accepted_ensures hm fun _ h => hm.addSchema hc h
  | ensureSchema name => exact hm.ensureSchema name
  | addTable schema t =>
      obtain ⟨rfl, hcolumns, hkeys, hforeignKeys⟩ := hc
      have ht : t.Unlinked t.path := .of_empty hcolumns hkeys hforeignKeys
      exact accepted_ensures hm fun _ h =>
        hm.addTable ht.toWellFormed ht.no_links ht.no_reference h
  | addColumn path c => exact accepted_ensures hm fun _ h => hm.addColumn hc h
  | addKey path columns constraint? =>
      exact accepted_ensures hm fun _ h => hm.addKey h
  | addReference source mapping constraint? onDelete onUpdate =>
      exact accepted_ensures hm fun _ h => hm.addReference h
  | drop p =>
      by_cases hp : m.Has p
      · obtain ⟨_, hdrop, _⟩ := hm.drop_removes hp
        have hresult : (p.drop.run.run m).2 = m.without (.of p) :=
          congrArg Prod.snd hdrop
        rw [apply, hresult]
        exact hm.without (Removal.of_cascades p)
      · obtain ⟨_, hfails⟩ := Model.drop_fails hp
        have hresult : (p.drop.run.run m).2 = m := congrArg Prod.snd hfails
        rw [apply, hresult]
        exact hm
  | applyTable schema doc settings =>
      refine accepted_ensures hm fun m' h => ?_
      obtain ⟨result, hresult, rfl⟩ := map_eq_ok.1 h
      exact hm.applyTable schema doc settings result hresult
  | applySchema doc settings =>
      exact accepted_ensures hm (hm.applySchema doc settings)

end Change

namespace Model

/-- The model after a history. -/
def after (m : Model) (changes : List Change) : Model :=
  changes.foldl Change.apply m

theorem after_closed {m : Model} (hm : m.Closed) {changes : List Change}
    (h : ∀ c ∈ changes, c.WellBuilt) : (m.after changes).Closed := by
  induction changes generalizing m with
  | nil => exact hm
  | cons c rest ih =>
      exact ih (Change.apply_closed hm (h c List.mem_cons_self))
        fun c' hc' => h c' (List.mem_cons_of_mem _ hc')

/-- A fresh model is closed after every step of a history, and on a closed model
every drop of what is there succeeds. -/
theorem history_closed (systemSchema : String) (changes : List Change)
    (hbuilt : ∀ c ∈ changes, c.WellBuilt) :
    (∀ steps, steps <+: changes →
        ((fresh systemSchema).after steps).Closed) ∧
      ∀ m : Model, m.Closed → ∀ p, m.Has p →
        ∃ statements m', p.drop.run.run m = (.ok statements, m') ∧
          m'.Closed := by
  constructor
  · intro steps hsteps
    exact after_closed (fresh_closed systemSchema) fun c hc =>
      hbuilt c (hsteps.subset hc)
  · intro m hm p hp
    obtain ⟨statements, hdrop, _⟩ := hm.drop_removes hp
    exact ⟨statements, _, hdrop, hm.without (Removal.of_cascades p)⟩

/-- A table whose rows and those of another table refer to its key. -/
def staff : List Change :=
  let people : TablePath := ⟨"staff", "people"⟩
  let notes : TablePath := ⟨"staff", "notes"⟩
  [.ensureSchema "staff",
    .addTable "staff" (.fresh "staff" "people" .table),
    .addColumn people (.stored people "id" 0 .text none),
    .addColumn people (.stored people "boss" 1 .text none),
    .addKey people (.ofList ["id"]) none,
    .addReference people
      ⟨people, .ofList [("boss", "id")], by decide⟩ none .noAction .cascade,
    .addTable "staff" (.fresh "staff" "notes" .table),
    .addColumn notes (.stored notes "author" 0 .text none),
    .addReference notes
      ⟨people, .ofList [("author", "id")], by decide⟩ none .setNull .noAction]

theorem staff_built : ∀ c ∈ staff, c.WellBuilt := by
  simp [staff, Change.WellBuilt, Table.fresh, Column.stored]

theorem history_closed_staff :
    (∀ steps, steps <+: staff → ((fresh "sys").after steps).Closed) ∧
      ∃ statements m', (Part.table ⟨"staff", "people"⟩).drop.run.run
        ((fresh "sys").after staff) = (.ok statements, m') ∧ m'.Closed := by
  obtain ⟨hclosed, hdrop⟩ := history_closed "sys" staff staff_built
  exact ⟨hclosed, hdrop _ (hclosed staff (List.prefix_refl _)) _ ⟨_, rfl⟩⟩

/-- Dropping a part of a closed model removes exactly the parts that go away with
it, leaves the rest of the model as it was, and returns the statements that
delete the stored rows of each removed part, once each. -/
theorem drop_exact {m : Model} (hm : m.Closed) {p : Part} (hp : m.Has p) :
    ∃ removed : List Part, removed.Nodup ∧
      (∀ q, q ∈ removed ↔ m.Has q ∧ p.takes q = true) ∧
      (∀ q ∈ removed, ∀ e, m.entity q.address = .ok e →
        m.storageKeyOf? e = some q.storageKey) ∧
      ∃ statements, p.drop.run.run m = (.ok statements, m.without (.of p)) ∧
        statements.Perm (removed.flatMap fun q =>
          q.storageKey.purge m.systemSchema.name) := by
  refine ⟨m.parts.filter p.takes, hm.named.nodup_parts.filter _, ?_, ?_,
    hm.drop_removes hp⟩
  · intro q
    rw [List.mem_filter, hm.named.mem_parts]
  · intro q _ e he
    exact hm.named.storageKeyOf?_part he

theorem drop_exact_staff :
    let m := (fresh "sys").after staff
    let p : Part := .column ⟨"staff", "people"⟩ "id"
    m.Closed ∧ m.Has p ∧
      ∃ removed : List Part, removed.Nodup ∧
        (∀ q, q ∈ removed ↔ m.Has q ∧ p.takes q = true) ∧
        (∀ q ∈ removed, ∀ e, m.entity q.address = .ok e →
          m.storageKeyOf? e = some q.storageKey) ∧
        ∃ statements, p.drop.run.run m = (.ok statements, m.without (.of p)) ∧
          statements.Perm (removed.flatMap fun q =>
            q.storageKey.purge m.systemSchema.name) := by
  have hclosed := after_closed (fresh_closed "sys") staff_built
  exact ⟨hclosed, ⟨_, rfl⟩, drop_exact hclosed ⟨_, rfl⟩⟩

end Model

end GovernedCatalog
