import GovernedCatalog.Introspection.Overlay
import GovernedCatalog.Proofs.Overlay.View
import GovernedCatalog.Proofs.Policy.Validity

/-!
# Stored rows and their places

A stored row has a place in a model if it names an entity and says something that
an entity of the kind can carry: the place is the address of the entity and the
key of what the row says.  Loading the row writes its content to its place.
-/

namespace GovernedCatalog

namespace Overlay

/-- The parts of an overlay. -/
inductive Layer where
  | annotation
  | acl
  | binding
  deriving DecidableEq

/-- What an overlay is asked for. -/
inductive Key where
  | annotation (uri : String)
  | acl (right : Right)
  | binding (name : String)
  deriving DecidableEq

inductive Content where
  | annotation (value : Json)
  | acl (members : List String)
  | binding (binding : AclBinding)

def get? (o : Overlay) : Key → Option Content
  | Key.annotation uri => (o.annotations.get? uri).map Content.annotation
  | Key.acl right => (o.acls.get? right).map Content.acl
  | Key.binding name => (o.bindings.get? name).map Content.binding

@[simp] theorem get?_empty (key : Key) : (∅ : Overlay).get? key = none := by
  cases key <;> rfl

end Overlay

namespace Model

/-- What is held at an address under a key. -/
def heldAt? (m : Model) (a : Address) (key : Overlay.Key) :
    Option Overlay.Content :=
  (m.overlayAt? a).bind fun o => o.get? key

end Model

namespace Dump

theorem Target.address?_ne_foreignKey {target : Target} {kind : StorageKind}
    {a : Address} (h : target.address? kind = some a) (path : TablePath)
    (columns : ColumnSet) : a ≠ .foreignKey path columns := by
  rintro rfl
  cases kind <;>
    simp [Target.address?, Option.bind_eq_some_iff] at h

/-- A row of the stored annotations, access lists or bindings of a kind of
entity. -/
inductive StoredRow where
  | annotation (kind : StorageKind) (row : AnnotationRow)
  | acl (kind : StorageKind) (row : AclRow)
  | binding (kind : StorageKind) (row : BindingRow)

namespace StoredRow

def kind : StoredRow → StorageKind
  | annotation kind _ | acl kind _ | binding kind _ => kind

def target : StoredRow → Target
  | annotation _ row => row.target
  | acl _ row => row.target
  | binding _ row => row.target

def layer : StoredRow → Overlay.Layer
  | annotation _ _ => Overlay.Layer.annotation
  | acl _ _ => .acl
  | binding _ _ => .binding

/-- What the row says of its entity. -/
def content : StoredRow → Overlay.Content
  | annotation _ row => Overlay.Content.annotation row.value
  | acl _ row => .acl row.members
  | binding _ row => .binding row.binding

/-- What the row says its content of, if the entity at an address can carry
it: a right that its kind supports, or a binding that is valid for its kind. -/
def keyAt? (a : Address) : StoredRow → Option Overlay.Key
  | annotation _ row => some <| Overlay.Key.annotation row.uri
  | acl _ row => do
      let right ← Right.ofName? row.right
      let kind ← a.aclKind?
      if kind.supports right then some (.acl right) else none
  | binding _ row => do
      let kind ← a.bindingKind?
      match row.binding.validate kind with
      | .ok _ => some (.binding row.name)
      | .error _ => none

/-- The address of the entity of a model that the row names, and the key of what
it says. -/
def place? (m : Model) (row : StoredRow) : Option (Address × Overlay.Key) := do
  let (a, _) ← Introspection.resolve? m row.kind row.target
  return (a, ← row.keyAt? a)

/-- The model with what the row says, if it can be attached. -/
def attach? (m : Model) : StoredRow → Option Model
  | annotation kind row => Introspection.annotate? m kind row
  | acl kind row => Introspection.restrict? m kind row
  | binding kind row => Introspection.bind? m kind row

/-- The counts with the row among those left out. -/
def skip (s : Introspection.Skipped) : StoredRow → Introspection.Skipped
  | annotation _ _ => { s with annotations := s.annotations + 1 }
  | acl _ _ => { s with acls := s.acls + 1 }
  | binding _ _ => { s with bindings := s.bindings + 1 }

/-- Attaches the row if it can be attached, and counts it otherwise. -/
def load (p : Introspection.Progress) (row : StoredRow) :
    Introspection.Progress :=
  match row.attach? p.model with
  | some m => { p with model := m }
  | none => { p with skipped := row.skip p.skipped }

end StoredRow

end Dump

namespace Introspection

open Dump

variable {m : Model}

theorem resolve?_eq_some_iff {kind : StorageKind} {target : Target}
    {a : Address} {e : Entity} :
    resolve? m kind target = some (a, e) ↔
      target.address? kind = some a ∧ m.visible? a = some e := by
  unfold resolve?
  rw [Option.bind_eq_bind, Option.bind_eq_some_iff]
  constructor
  · rintro ⟨a', ha, h⟩
    cases hentity : m.entity a' with
    | error _ => simp [hentity] at h
    | ok e' =>
        simp only [hentity] at h
        cases h
        exact ⟨ha, Model.entity_eq_ok_iff.1 hentity⟩
  · rintro ⟨ha, he⟩
    exact ⟨a, ha, by rw [Model.entity_eq_ok_iff.2 he]; rfl⟩

theorem place?_eq_some_iff {row : StoredRow} {a : Address} {key : Overlay.Key} :
    row.place? m = some (a, key) ↔
      ∃ e, resolve? m row.kind row.target = some (a, e) ∧
        row.keyAt? a = some key := by
  unfold StoredRow.place?
  simp only [Option.bind_eq_bind, Option.bind_eq_some_iff, Prod.exists,
    Option.pure_def, Option.some.injEq, Prod.mk.injEq]
  constructor
  · rintro ⟨a', e, he, key', hkey, rfl, rfl⟩
    exact ⟨e, he, hkey⟩
  · rintro ⟨e, he, hkey⟩
    exact ⟨a, e, he, key, hkey, rfl, rfl⟩

/-- The model has a content at a place, and is the other one elsewhere. -/
structure Writes (m m' : Model) (a : Address) (key : Overlay.Key)
    (content : Overlay.Content) : Prop where
  same : ∀ a', (m'.overlayAt? a').isSome = (m.overlayAt? a').isSome
  held : ∀ a' key', m'.heldAt? a' key' =
    if a' = a ∧ key' = key then some content else m.heldAt? a' key'

theorem Writes.of_changed {m' : Model} {a : Address} {o : Overlay}
    (ho : m.overlayAt? a = some o) {g : Overlay → Overlay} {key : Overlay.Key}
    {content : Overlay.Content}
    (hchanged : ∀ a', m'.overlayAt? a' =
      if a' = a then (m.overlayAt? a').map g else m.overlayAt? a')
    (hg : ∀ key', (g o).get? key' =
      if key' = key then some content else o.get? key') :
    Writes m m' a key content where
  same a' := by
    rw [hchanged]
    by_cases ha : a' = a <;> simp [ha]
  held a' key' := by
    unfold Model.heldAt?
    rw [hchanged]
    by_cases ha : a' = a
    · simp [ha, ho, hg]
    · simp [ha]

theorem keyAt?_acl {kind : StorageKind} {row : AclRow} {a : Address}
    {key : Overlay.Key} :
    (StoredRow.acl kind row).keyAt? a = some key ↔
      ∃ right aclKind, Right.ofName? row.right = some right ∧
        a.aclKind? = some aclKind ∧ aclKind.supports right = true ∧
          key = .acl right := by
  simp only [StoredRow.keyAt?, Option.bind_eq_bind, Option.bind_eq_some_iff]
  constructor
  · rintro ⟨right, hright, aclKind, hkind, h⟩
    by_cases hsupports : aclKind.supports right = true
    · rw [if_pos hsupports] at h
      cases h
      exact ⟨right, aclKind, hright, hkind, hsupports, rfl⟩
    · rw [if_neg hsupports] at h
      cases h
  · rintro ⟨right, aclKind, hright, hkind, hsupports, rfl⟩
    exact ⟨right, hright, aclKind, hkind, if_pos hsupports⟩

theorem keyAt?_binding {kind : StorageKind} {row : BindingRow} {a : Address}
    {key : Overlay.Key} :
    (StoredRow.binding kind row).keyAt? a = some key ↔
      ∃ aclKind, a.bindingKind? = some aclKind ∧
        row.binding.validate aclKind = .ok () ∧ key = .binding row.name := by
  simp only [StoredRow.keyAt?, Option.bind_eq_bind, Option.bind_eq_some_iff]
  constructor
  · rintro ⟨aclKind, hkind, h⟩
    cases hvalid : row.binding.validate aclKind with
    | error _ => simp [hvalid] at h
    | ok u =>
        simp only [hvalid, Option.some.injEq] at h
        exact ⟨aclKind, hkind, hvalid, h.symm⟩
  · rintro ⟨aclKind, hkind, hvalid, rfl⟩
    exact ⟨aclKind, hkind, by rw [hvalid]⟩

/-! ## Rows that are attached -/

section Rows

variable {kind : StorageKind} {a : Address} {e : Entity}

theorem annotate?_eq_some {row : AnnotationRow} {m' : Model}
    (h : annotate? m kind row = some m') :
    ∃ a e annotations, resolve? m kind row.target = some (a, e) ∧
      m.annotationsOf? e = some annotations ∧
      m' = m.setAnnotations a (annotations.insert row.uri row.value) := by
  obtain ⟨⟨a, e⟩, he, h⟩ := Option.bind_eq_some_iff.1 h
  obtain ⟨annotations, hannotations, h⟩ := Option.bind_eq_some_iff.1 h
  cases h
  exact ⟨a, e, annotations, he, hannotations, rfl⟩

theorem restrict?_eq_some {row : AclRow} {m' : Model}
    (h : restrict? m kind row = some m') :
    ∃ right a e aclKind acls acls', Right.ofName? row.right = some right ∧
      resolve? m kind row.target = some (a, e) ∧
      m.aclsOf? e = some (aclKind, acls) ∧
      acls.set aclKind right row.members = .ok acls' ∧ m' = m.setAcls a acls' := by
  obtain ⟨right, hright, h⟩ := Option.bind_eq_some_iff.1 h
  obtain ⟨⟨a, e⟩, he, h⟩ := Option.bind_eq_some_iff.1 h
  obtain ⟨⟨aclKind, acls⟩, hacls, h⟩ := Option.bind_eq_some_iff.1 h
  cases hset : acls.set aclKind right row.members with
  | error _ => simp [hset] at h
  | ok acls' =>
      simp only [hset] at h
      cases h
      exact ⟨right, a, e, aclKind, acls, acls', hright, he, hacls, hset, rfl⟩

theorem bind?_eq_some {row : BindingRow} {m' : Model}
    (h : bind? m kind row = some m') :
    ∃ a e aclKind bindings bindings',
      resolve? m kind row.target = some (a, e) ∧
      Model.bindingsOf? e = some (aclKind, bindings) ∧
      bindings.set aclKind row.name row.binding = .ok bindings' ∧
      m' = m.setBindings a bindings' := by
  obtain ⟨⟨a, e⟩, he, h⟩ := Option.bind_eq_some_iff.1 h
  obtain ⟨⟨aclKind, bindings⟩, hbindings, h⟩ := Option.bind_eq_some_iff.1 h
  cases hset : bindings.set aclKind row.name row.binding with
  | error _ => simp [hset] at h
  | ok bindings' =>
      simp only [hset] at h
      cases h
      exact ⟨a, e, aclKind, bindings, bindings', he, hbindings, hset, rfl⟩

theorem annotate?_of_resolve {row : AnnotationRow}
    (he : resolve? m kind row.target = some (a, e)) :
    annotate? m kind row = some (m.setAnnotations a
      ((m.overlayOf e).annotations.insert row.uri row.value)) := by
  obtain ⟨ha, hvisible⟩ := resolve?_eq_some_iff.1 he
  have hannotations := Model.annotationsOf?_of_visible hvisible
    (Target.address?_ne_foreignKey ha)
  unfold annotate?
  simp only [he, hannotations, Option.bind_eq_bind, Option.bind_some]
  rfl

theorem restrict?_of_resolve {row : AclRow}
    (he : resolve? m kind row.target = some (a, e)) {right : Right}
    (hright : Right.ofName? row.right = some right) {aclKind : AclKind}
    (hkind : a.aclKind? = some aclKind)
    (hsupports : aclKind.supports right = true) :
    restrict? m kind row = some (m.setAcls a
      ((m.overlayOf e).acls.insert right row.members)) := by
  have hacls := Model.aclsOf?_of_visible (resolve?_eq_some_iff.1 he).2
  rw [hkind] at hacls
  unfold restrict?
  simp only [he, hright, hacls, Acls.set, hsupports, Option.bind_eq_bind,
    Option.bind_some, Option.map_some, if_true]
  rfl

theorem bind?_of_resolve {row : BindingRow}
    (he : resolve? m kind row.target = some (a, e)) {aclKind : AclKind}
    (hkind : a.bindingKind? = some aclKind)
    (hvalid : row.binding.validate aclKind = .ok ()) :
    bind? m kind row = some (m.setBindings a
      ((m.overlayOf e).bindings.insert row.name row.binding)) := by
  have hbindings := Model.bindingsOf?_of_visible (resolve?_eq_some_iff.1 he).2
  rw [hkind] at hbindings
  unfold bind?
  simp only [he, hbindings, Bindings.set, hvalid, Option.bind_eq_bind,
    Option.bind_some, Option.map_some, Except.map]
  rfl

end Rows

theorem attach?_of_place {row : StoredRow} {a : Address} {key : Overlay.Key}
    (h : row.place? m = some (a, key)) :
    ∃ m', row.attach? m = some m' ∧ Writes m m' a key row.content := by
  obtain ⟨e, he, hkey⟩ := place?_eq_some_iff.1 h
  obtain ⟨ha, hvisible⟩ := resolve?_eq_some_iff.1 he
  have ho : m.overlayAt? a = some (m.overlayOf e) :=
    Option.map_eq_some_iff.2 ⟨e, hvisible, rfl⟩
  cases row with
  | annotation kind row =>
      cases hkey
      refine ⟨_, annotate?_of_resolve he, .of_changed ho (fun _ =>
        m.overlayAt?_setAnnotations (Target.address?_ne_foreignKey ha) _) ?_⟩
      rintro (uri | right | name)
      · by_cases huri : uri = row.uri <;>
          simp [Overlay.get?, StoredRow.content, huri]
      · simp [Overlay.get?]
      · simp [Overlay.get?]
  | acl kind row =>
      obtain ⟨right, aclKind, hright, hkind, hsupports, rfl⟩ :=
        keyAt?_acl.1 hkey
      refine ⟨_, restrict?_of_resolve he hright hkind hsupports, .of_changed ho
        (fun _ => m.overlayAt?_setAcls (by simp [hkind]) _) ?_⟩
      rintro (uri | right' | name)
      · simp [Overlay.get?]
      · by_cases heq : right' = right <;>
          simp [Overlay.get?, StoredRow.content, heq]
      · simp [Overlay.get?]
  | binding kind row =>
      obtain ⟨aclKind, hkind, hvalid, rfl⟩ := keyAt?_binding.1 hkey
      refine ⟨_, bind?_of_resolve he hkind hvalid, .of_changed ho
        (fun _ => m.overlayAt?_setBindings (by simp [hkind]) _) ?_⟩
      rintro (uri | right | name)
      · simp [Overlay.get?]
      · simp [Overlay.get?]
      · by_cases hname : name = row.name <;>
          simp [Overlay.get?, StoredRow.content, hname]

theorem place?_of_attach? {row : StoredRow} {m' : Model}
    (h : row.attach? m = some m') : ∃ a key, row.place? m = some (a, key) := by
  cases row with
  | annotation kind row =>
      obtain ⟨a, e, _, he, _, _⟩ := annotate?_eq_some h
      exact ⟨a, _, place?_eq_some_iff.2 ⟨e, he, rfl⟩⟩
  | acl kind row =>
      obtain ⟨right, a, e, aclKind, acls, _, hright, he, hacls, hset, _⟩ :=
        restrict?_eq_some h
      rw [Model.aclsOf?_of_visible (resolve?_eq_some_iff.1 he).2] at hacls
      obtain ⟨_, hkind, hpair⟩ := Option.map_eq_some_iff.1 hacls
      cases hpair
      have hsupports := (Acls.set_eq_ok_iff.1 hset).1
      exact ⟨a, _, place?_eq_some_iff.2 ⟨e, he,
        keyAt?_acl.2 ⟨right, aclKind, hright, hkind, hsupports, rfl⟩⟩⟩
  | binding kind row =>
      obtain ⟨a, e, aclKind, bindings, _, he, hbindings, hset, _⟩ :=
        bind?_eq_some h
      rw [Model.bindingsOf?_of_visible (resolve?_eq_some_iff.1 he).2] at hbindings
      obtain ⟨_, hkind, hpair⟩ := Option.map_eq_some_iff.1 hbindings
      cases hpair
      have hvalid : row.binding.validate aclKind = .ok () :=
        AclBinding.validate_eq_ok_iff.2 (Bindings.set_eq_ok_iff.1 hset).1
      exact ⟨a, _, place?_eq_some_iff.2 ⟨e, he,
        keyAt?_binding.2 ⟨aclKind, hkind, hvalid, rfl⟩⟩⟩

/-- Models with entities at the same addresses have the same places for rows. -/
theorem place?_of_same {m' : Model}
    (hsame : ∀ a, (m'.overlayAt? a).isSome = (m.overlayAt? a).isSome)
    (row : StoredRow) : row.place? m' = row.place? m := by
  have hvisible : ∀ a, (∃ e, m'.visible? a = some e) ↔
      ∃ e, m.visible? a = some e := by
    intro a
    simpa [Model.overlayAt?, Option.isSome_iff_exists] using
      Bool.eq_iff_iff.1 (hsame a)
  ext ⟨a, key⟩
  simp only [place?_eq_some_iff, resolve?_eq_some_iff, exists_and_right,
    exists_and_left, hvisible, and_assoc]

end Introspection

end GovernedCatalog
