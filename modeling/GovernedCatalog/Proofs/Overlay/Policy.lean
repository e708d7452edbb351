import GovernedCatalog.Proofs.Document.Relinking
import GovernedCatalog.Proofs.Model.History
import GovernedCatalog.Proofs.Overlay.Carried
import GovernedCatalog.Proofs.Policy.Validity
import GovernedCatalog.Proofs.Stateful

/-!
# Valid policies throughout a model

An entity has a valid policy if its access lists and bindings are valid for its
kind.  A model in which every entity has one keeps it when access lists and bindings
are set that are valid for the kind of entity at their address.
-/

namespace GovernedCatalog

namespace StorageKind

/-- The kind of entity for access lists. -/
def aclKind? : StorageKind → Option AclKind
  | catalog => some .catalog
  | schema => some .schema
  | table => some .table
  | column => some .column
  | key => none
  | keyReference => some .keyReference

/-- The kind of entity for bindings. -/
def bindingKind? : StorageKind → Option AclKind
  | catalog | schema | key => none
  | table => some .table
  | column => some .column
  | keyReference => some .keyReference

end StorageKind

namespace Address

variable {a : Address} {kind : StorageKind}

theorem aclKind?_of_storageKind? (h : a.storageKind? = some kind) :
    kind.aclKind? = a.aclKind? := by
  cases a <;> cases h <;> rfl

theorem bindingKind?_of_storageKind? (h : a.storageKind? = some kind) :
    kind.bindingKind? = a.bindingKind? := by
  cases a <;> cases h <;> rfl

/-- Rows are stored for every entity with access lists. -/
theorem exists_storageKind?_of_aclKind? {aclKind : AclKind}
    (h : a.aclKind? = some aclKind) :
    ∃ kind, a.storageKind? = some kind ∧ kind.aclKind? = some aclKind := by
  cases a <;> first | exact ⟨_, rfl, h⟩ | cases h

/-- Rows are stored for every entity with bindings. -/
theorem exists_storageKind?_of_bindingKind? {aclKind : AclKind}
    (h : a.bindingKind? = some aclKind) :
    ∃ kind, a.storageKind? = some kind ∧ kind.bindingKind? = some aclKind := by
  cases a <;> first | exact ⟨_, rfl, h⟩ | cases h

end Address

namespace Overlay

/-- A policy that is valid for the kind of its entity. -/
structure Valid (kind : StorageKind) (o : Overlay) : Prop where
  acls : ∀ aclKind, kind.aclKind? = some aclKind → o.acls.Supported aclKind
  bindings : ∀ aclKind, kind.bindingKind? = some aclKind →
    o.bindings.WellFormed aclKind

/-- A policy that was set for the kind of its entity. -/
structure Made (kind : StorageKind) (o : Overlay) : Prop where
  acls : ∀ aclKind, kind.aclKind? = some aclKind →
    Acls.MadeFor aclKind o.acls
  bindings : ∀ aclKind, kind.bindingKind? = some aclKind →
    Bindings.MadeFor aclKind o.bindings

theorem Made.valid {kind : StorageKind} {o : Overlay} (h : o.Made kind) :
    o.Valid kind where
  acls aclKind hkind := (h.acls aclKind hkind).supported
  bindings aclKind hkind := (h.bindings aclKind hkind).wellFormed

/-- A policy that passed both checks, for a kind with access lists and bindings. -/
theorem Valid.of_validate {kind : StorageKind} {aclKind : AclKind} {o : Overlay}
    (hkind : kind.aclKind? = some aclKind)
    (hkind' : kind.bindingKind? = some aclKind)
    (hacls : o.acls.validate aclKind = .ok ())
    (hbindings : o.bindings.validate aclKind = .ok ()) : o.Valid kind where
  acls _ h := by
    rw [hkind] at h
    cases h
    exact Acls.validate_eq_ok_iff.1 hacls
  bindings _ h := by
    rw [hkind'] at h
    cases h
    exact Bindings.validate_eq_ok_iff.1 hbindings

theorem made_empty (kind : StorageKind) : (∅ : Overlay).Made kind where
  acls _ _ := .empty
  bindings _ _ := .empty

theorem valid_empty (kind : StorageKind) : (∅ : Overlay).Valid kind where
  acls _ _ := SortedMap.all_empty
  bindings _ _ := SortedMap.all_empty

end Overlay

/-! ## The policy of an entity -/

/-- What the entity carries in the model is valid for its kind. -/
def Entity.ValidIn (e : Entity) (m : Model) : Prop :=
  ∀ kind, e.address.storageKind? = some kind → (m.overlayOf e).Valid kind

namespace Entity.ValidIn

variable {m : Model} {e : Entity} {kind : AclKind} (he : e.ValidIn m)

include he

theorem acls {acls : Acls} (h : m.aclsOf? e = some (kind, acls)) :
    acls.Supported kind := by
  rw [Model.aclsOf?_eq] at h
  obtain ⟨kind, hkind, h⟩ := Option.map_eq_some_iff.1 h
  cases h
  obtain ⟨storageKind, hstorage, hacl⟩ :=
    Address.exists_storageKind?_of_aclKind? hkind
  exact (he storageKind hstorage).acls kind hacl

theorem bindings {bindings : Bindings}
    (h : Model.bindingsOf? e = some (kind, bindings)) :
    bindings.WellFormed kind := by
  rw [Model.bindingsOf?_eq m] at h
  obtain ⟨kind, hkind, h⟩ := Option.map_eq_some_iff.1 h
  cases h
  obtain ⟨storageKind, hstorage, hbinding⟩ :=
    Address.exists_storageKind?_of_bindingKind? hkind
  exact (he storageKind hstorage).bindings kind hbinding

end Entity.ValidIn

namespace Model

variable {m : Model} {a : Address} {e : Entity} {kind : AclKind}

theorem aclKind?_of_aclsOf? {acls : Acls} (h : m.aclsOf? e = some (kind, acls)) :
    e.address.aclKind? = some kind := by
  cases e <;> cases h <;> rfl

theorem bindingKind?_of_bindingsOf? {bindings : Bindings}
    (h : bindingsOf? e = some (kind, bindings)) :
    e.address.bindingKind? = some kind := by
  cases e <;> cases h <;> rfl

namespace Carries

variable (hm : m.Carries Overlay.Valid)

include hm

theorem validIn_of_visible (he : m.visible? a = some e) : e.ValidIn m := by
  intro kind hkind
  rw [(sameKind_of_visible he).storage] at hkind
  exact hm.of_overlayAt? hkind (Option.map_eq_some_iff.2 ⟨e, he, rfl⟩)

theorem validIn_of_reach (he : m.reach a = .ok e) : e.ValidIn m :=
  fun _ hkind => hm.of_reach he hkind

theorem validIn_of_mem (he : e ∈ m.entities.map Prod.snd) : e.ValidIn m :=
  fun _ hkind => hm.of_mem_entities hkind he

/-- A model keeps valid policies when lists are set that an entity at the address
can carry. -/
theorem setAcls_of_supported {acls : Acls} (hkind : a.aclKind? = some kind)
    (hacls : acls.Supported kind) : (m.setAcls a acls).Carries Overlay.Valid := by
  refine hm.setAcls fun storageKind o hstorage ho => { ho with acls := ?_ }
  intro aclKind h
  rw [Address.aclKind?_of_storageKind? hstorage, hkind] at h
  cases h
  exact hacls

/-- A model keeps valid policies when bindings are set that an entity at the
address can carry. -/
theorem setBindings_of_wellFormed {bindings : Bindings}
    (hkind : a.bindingKind? = some kind) (hbindings : bindings.WellFormed kind) :
    (m.setBindings a bindings).Carries Overlay.Valid := by
  refine hm.setBindings fun storageKind o hstorage ho => { ho with bindings := ?_ }
  intro aclKind h
  rw [Address.bindingKind?_of_storageKind? hstorage, hkind] at h
  cases h
  exact hbindings

end Carries

end Model

/-! ## Documents put in valid policies

Every policy in a document is checked for the kind of entity that it is put on, so
a model with a valid policy throughout still has one when a document has been
applied. -/

theorem ColumnDocument.Builds.valid {doc : ColumnDocument} {path : TablePath}
    {position : Nat} {settings : Settings} {c : Column}
    (h : doc.Builds path position settings c) : c.carried.Valid .column := by
  have hacls : c.carried.acls = doc.acls := h.acls
  have hbindings : c.carried.bindings = doc.bindings := h.bindings
  refine .of_validate rfl rfl ?_ ?_
  · rw [hacls]
    exact h.validAcls
  · rw [hbindings]
    exact h.validBindings

theorem ForeignKeyDocument.Accepted.valid {doc : ForeignKeyDocument}
    (h : doc.Accepted) (r : Reference) :
    (doc.describe r).carried.Valid .keyReference :=
  .of_validate rfl rfl h.validAcls h.validBindings

theorem KeyDocument.carries_addTo (doc : KeyDocument) {t : Table}
    (ht : t.Carries Overlay.Valid) :
    Ensures (doc.addTo t) (Table.Carries Overlay.Valid) := by
  intro t' h
  obtain ⟨names, -, -, -, rfl⟩ := addTo_eq_ok.1 h
  refine (ht.addKey (Overlay.valid_empty .key) _ none).updateKey _ fun key _ => ?_
  exact ⟨fun _ hkind => (by cases hkind), fun _ hkind => (by cases hkind)⟩

/-- A described table is valid, with all its columns and keys. -/
theorem TableDocument.carries_fill (doc : TableDocument) (schema name : String)
    (kind : TableKind) (settings : Settings) :
    Ensures (doc.fill schema name kind settings)
      (Table.Carries Overlay.Valid) := by
  intro t h
  obtain ⟨⟨⟩, hacls, h⟩ := bind_eq_ok.1 h
  obtain ⟨⟨⟩, hbindings, h⟩ := bind_eq_ok.1 h
  have hown : (doc.bare schema name kind).carried.Valid .table :=
    .of_validate rfl rfl hacls hbindings
  have hbare : (doc.bare schema name kind).Carries Overlay.Valid :=
    .of_empty hown rfl rfl rfl
  revert h
  refine Ensures.bind (.foldlM (P := Table.Carries Overlay.Valid)
    (fun t entry _ ht => ?_) hbare) (fun withColumns hcolumns => ?_) t
  · intro t' hadd
    obtain ⟨c, hc, hadd⟩ := bind_eq_ok.1 hadd
    exact ht.addColumn (ColumnDocument.builds_of_build hc).valid t' hadd
  · exact .foldlM (P := Table.Carries Overlay.Valid)
      (fun t key _ ht => key.carries_addTo ht) hcolumns

namespace Model

/-- Documents keep a model valid. -/
theorem valid_extends : Extends (Carries Overlay.Valid) where
  table := by
    intro m m' doc schema settings t hm ht h
    obtain ⟨name, kind, -, hfill⟩ := TableDocument.build_eq_ok.1 ht
    exact hm.addTable schema
      (doc.carries_fill schema name kind settings t hfill) m' h
  foreignKey := by
    intro m hm source doc
    unfold Model.applyForeignKey
    refine .bind (doc.mapping_ensures source) fun mapping haccepted => ?_
    refine .bind (hm.addReference (Overlay.valid_empty .keyReference) _ _ _ _ _)
      fun extended hextended => .ok ?_
    exact hextended.updateTable source fun _ ht =>
      ht.updateReference mapping fun r _ => haccepted.valid r
  schema := by
    intro m m' s hm htables hacls h
    have htable : s.Carries Overlay.Valid := by
      refine ⟨⟨fun kind hkind => ?_, fun kind hkind => ?_⟩, ?_⟩
      · cases hkind
        exact Acls.validate_eq_ok_iff.1 hacls
      · cases hkind
      · rw [htables]
        exact SortedMap.all_empty
    exact hm.addSchema htable m' h

end Model

end GovernedCatalog

/-!
## Histories of valid policies

A change puts in documents, whose policies are checked, and whole entities.  If the
policies of the latter were set for their kinds, every change, whether it succeeds
or is refused, leaves a model with a valid policy throughout.
-/

namespace GovernedCatalog

/-! ### Drops keep what is carried

A drop takes entities away and leaves what the others carry, also when it stops
halfway because the model is not closed. -/

variable {P : OverlayProperty}

namespace Model

theorem dropReference_upholds (id : ReferenceId) :
    Upholds (Carries P) (dropReference id) fun _ => True := by
  unfold dropReference
  refine .bind .get fun m hm => .bind (.lift _) fun r _ => ?_
  have hwithout := hm.updateTable id.source fun _ ht =>
    ht.removeReference id.mapping
  refine .bind (.set (hwithout.updateTable id.mapping.target fun _ ht => ?_))
    fun _ _ => .pure trivial
  exact ht.updateKey id.mapping.toColumns fun _ hkey => hkey

theorem dropReferences_upholds (ids : List ReferenceId) :
    Upholds (Carries P) (dropReferences ids) fun _ => True := by
  unfold dropReferences
  exact .bind (.mapM fun id _ => dropReference_upholds id) fun _ _ =>
    .pure trivial

theorem dropKey_upholds (path : TablePath) (columns : ColumnSet) :
    Upholds (Carries P) (dropKey path columns) fun _ => True := by
  unfold dropKey
  refine .bind .get fun m _ => .bind (.lift _) fun t _ => .bind (.lift _)
    fun key _ => .bind (dropReferences_upholds _) fun _ _ => ?_
  refine .bind (.modify fun m hm => ?_) fun _ _ => .bind .get fun _ _ =>
    .pure trivial
  exact hm.updateTable path fun _ ht => ht.removeKey columns

theorem dropColumn_upholds (path : TablePath) (name : String) :
    Upholds (Carries P) (dropColumn path name) fun _ => True := by
  unfold dropColumn
  refine .bind .get fun m _ => .bind (.lift _) fun t _ => .bind (.lift _)
    fun column _ => ?_
  extract_lets references keys
  refine .bind (dropReferences_upholds _) fun _ _ =>
    .bind (.mapM fun columns _ => dropKey_upholds path columns) fun _ _ => ?_
  refine .bind (.modify fun m hm => ?_) fun _ _ => .bind .get fun _ _ =>
    .pure trivial
  exact hm.updateTable path fun _ ht => ht.removeColumn name

theorem dropTable_upholds (path : TablePath) :
    Upholds (Carries P) (dropTable path) fun _ => True := by
  unfold dropTable
  refine .bind .get fun m _ => .bind (.lift _) fun t _ =>
    .bind (dropReferences_upholds _) fun _ _ => .bind .get fun m _ =>
      .bind (.lift _) fun t _ => ?_
  refine .bind (.modify fun m hm => ?_) fun _ _ => .bind .get fun _ _ =>
    .pure trivial
  exact hm.updateSchema path.schema fun _ hs =>
    { hs with table := hs.table.erase path.table }

theorem dropSchema_upholds (name : String) :
    Upholds (Carries P) (dropSchema name) fun _ => True := by
  unfold dropSchema
  refine .bind .get fun m _ => .bind (.lift _) fun s _ =>
    .bind (.mapM fun table _ => dropTable_upholds ⟨name, table⟩) fun _ _ => ?_
  exact .bind (.modify fun m hm => hm.eraseSchema name) fun _ _ =>
    .bind .get fun _ _ => .pure trivial

end Model

/-- A drop that succeeds or fails leaves a model whose entities carry what they
should. -/
theorem Part.drop_upholds (p : Part) :
    Upholds (Model.Carries P) p.drop fun _ => True := by
  cases p with
  | schema name => exact Model.dropSchema_upholds name
  | table path => exact Model.dropTable_upholds path
  | column path name => exact Model.dropColumn_upholds path name
  | key path columns => exact Model.dropKey_upholds path columns
  | reference id => exact Model.dropReference_upholds id

end GovernedCatalog

namespace GovernedCatalog

/-! ### Changes -/

namespace Change

/-- Entities that are added as a whole had their policies set for their kinds. -/
def WellMade : Change → Prop
  | addSchema s => s.Carries Overlay.Made
  | addTable _ t => t.Carries Overlay.Made
  | addColumn _ c => c.carried.Made .column
  | _ => True

theorem apply_carries {m : Model} (hm : m.Carries Overlay.Valid) {c : Change}
    (hc : c.WellMade) : (apply m c).Carries Overlay.Valid := by
  have hempty := Overlay.valid_empty
  cases c with
  | addSchema s =>
      have hs : s.Carries Overlay.Valid := hc.imp fun _ _ => Overlay.Made.valid
      exact accepted_ensures hm (hm.addSchema hs)
  | ensureSchema name => exact hm.ensureSchema (hempty .schema) name
  | addTable schema t =>
      have ht : t.Carries Overlay.Valid := hc.imp fun _ _ => Overlay.Made.valid
      exact accepted_ensures hm (hm.addTable schema ht)
  | addColumn path c => exact accepted_ensures hm (hm.addColumn path hc.valid)
  | addKey path columns constraint? =>
      exact accepted_ensures hm (hm.addKey (hempty .key) path columns constraint?)
  | addReference source mapping constraint? onDelete onUpdate =>
      exact accepted_ensures hm
        (hm.addReference (hempty .keyReference) source mapping constraint?
          onDelete onUpdate)
  | drop p => exact (p.drop_upholds m hm).1
  | applyTable schema doc settings =>
      refine accepted_ensures hm fun m' h => ?_
      obtain ⟨result, hresult, rfl⟩ := map_eq_ok.1 h
      exact Model.valid_extends.applyTable hm settings schema doc result hresult
  | applySchema doc settings =>
      exact accepted_ensures hm
        (Model.valid_extends.applySchema hm settings doc)

end Change

end GovernedCatalog
